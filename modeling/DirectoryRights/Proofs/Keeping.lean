import DirectoryRights.Proofs.Rereading
import DirectoryRights.Proofs.Uncached

/-!
# Entries that keep some of their grants

From the grants of an entry some can be taken away, so that those are left that pass a test. What is
read of the entry afterwards are the grants that were read before and pass the test, in the order of
the search, and lines that could not be read still cannot. Nothing else in the directory changes.
-/

set_option autoImplicit false

namespace DirectoryRights

namespace Grant

/-- Grants that pass a test are searched in the order of all. -/
theorem ranked_filter (p : Grant → Bool) (gs : List Grant) :
    ranked (gs.filter p) = (ranked gs).filter p := by
  have hcomm : ∀ kind : Grant → Bool, (gs.filter p).filter kind = (gs.filter kind).filter p := by
    intro kind
    rw [List.filter_filter, List.filter_filter]
    apply List.filter_congr
    intro g _
    exact Bool.and_comm _ _
  unfold ranked
  rw [List.filter_append, List.filter_append, hcomm, hcomm, hcomm]

end Grant

namespace GrantSet

variable {c : Catalog} {p : Grant → Bool}

/-- The grants of the set that pass a test, in the order of the search. -/
def kept (p : Grant → Bool) (s : GrantSet) : GrantSet :=
  ⟨s.all.filter p⟩

/-- The lines that are left of stored ones when the grants that fail a test are taken away. Lines
that cannot be read stay as they are. -/
def keptLines (c : Catalog) (p : Grant → Bool) (lines : List String) : List String :=
  match lines.mapM (Grant.parse c) with
  | .ok gs => ((ofList gs).kept p).lines
  | .error _ => lines

/-- The kept grants are those of the search that pass the test. -/
theorem all_kept (s : GrantSet) : (s.kept p).all = s.all.filter p := by
  unfold kept all
  rw [Grant.ranked_filter, Grant.ranked_ranked]

/-- A test that does not look at the place keeps the same grants without their places. -/
theorem kept_unplaced (hp : ∀ g : Grant, p g.unplaced = p g) (s : GrantSet) :
    (s.kept p).unplaced = s.unplaced.kept p := by
  unfold kept
  rw [all_unplaced, Grant.filter_map_unplaced hp]
  rfl

/-- Among the grants that are kept no slot comes twice either. -/
theorem Distinct.kept {s : GrantSet} (h : s.Distinct) : (s.kept p).Distinct := by
  have hall : (s.all.map Grant.slot).Nodup :=
    ((Grant.ranked_perm s.grants).map Grant.slot).nodup_iff.mpr h
  exact hall.sublist (List.filter_sublist.map _)

/-- An empty set has nothing to keep, and so it can be taken for none before. -/
theorem bind_kept_present (s : GrantSet) :
    ((Store.present s).bind fun set => Store.present (set.kept p)) = Store.present (s.kept p) := by
  unfold Store.present
  cases hempty : s.isEmpty with
  | false => rfl
  | true =>
    have hnone : (s.kept p).isEmpty = true := by
      have hnil : s.grants = [] := List.isEmpty_iff.mp hempty
      unfold GrantSet.kept all
      rw [hnil]
      rfl
    simp [hnone]

/-- What is kept of the grants of an entry are those that pass the test. -/
theorem elim_kept (set : Option GrantSet) :
    (set.bind fun set => Store.present (set.kept p)).elim [] all = (set.elim [] all).filter p := by
  cases set with
  | none => rfl
  | some set =>
    show (Store.present (set.kept p)).elim [] all = set.all.filter p
    rw [elim_present, all_kept]

/-- The kept lines are read as the kept grants, and lines that cannot be read fail as before. -/
theorem parse_keptLines (hp : ∀ g : Grant, p g.unplaced = p g) (e : Entry) (lines : List String) :
    (parse c e (keptLines c p lines)).map unplaced =
      (parse c e lines).map fun set => set.unplaced.kept p := by
  unfold keptLines
  cases hgs : lines.mapM (Grant.parse c) with
  | error cause =>
    simp only
    unfold parse
    rw [hgs]
    rfl
  | ok gs =>
    have hstored : ∀ g ∈ ((ofList gs).kept p).grants,
        g.Writable ∧ c.lookup g.right.name = .ok g.right := by
      intro g hg
      have hmem := mem_ofList (Grant.mem_ranked.mp (List.mem_filter.mp hg).1)
      obtain ⟨line, -, hparse⟩ := exists_line_of_mapM hgs hmem
      obtain ⟨field, right, hread⟩ := Grant.read_of_parse hparse
      exact ⟨Grant.writable_of_parse hparse, hread.found⟩
    have hlines := parse_lines (distinct_ofList gs).kept (fun g hg => (hstored g hg).2)
      (fun g hg => (hstored g hg).1) e
    have hleft : (parse c e ((ofList gs).kept p).lines).map unplaced =
        .ok ((ofList gs).kept p).unplaced := by
      rw [hlines, all_kept]
      show Except.ok (GrantSet.mk (List.map Grant.unplaced (List.map _ _))) = _
      rw [List.map_map]
      rfl
    have hwhole : (parse c e lines).map (fun set => set.unplaced.kept p) =
        .ok ((ofList gs).unplaced.kept p) := by
      unfold parse
      rw [hgs]
      show Except.ok ((ofList _).unplaced.kept p) = _
      rw [ofList_unplaced, ofList_unplaced, List.map_map]
      rfl
    simp only
    rw [hleft, hwhole, kept_unplaced hp]

end GrantSet

/-- The grants of an answer that pass a test. -/
def GrantAnswer.kept (p : Grant → Bool) (a : GrantAnswer) : GrantAnswer :=
  a.map fun set => set.bind fun set => Store.present (set.kept p)

namespace Directory

/-- The directory in which the entries of some ids store no grants but those that pass a test. -/
def keeping (c : Catalog) (p : Grant → Bool) (ids : List EntryId) (d : Directory) : Directory :=
  { d with
    attributes := ⟨d.attributes.rows.map fun (key, values) =>
      (key, if key.1 ∈ ids ∧ key.2 = Store.grantAttribute then GrantSet.keptLines c p values
        else values)⟩ }

variable (d : Directory) {c : Catalog} {p : Grant → Bool} {ids : List EntryId}

/-- Taking grants away changes nothing about the entries. -/
theorem sameEntries_keeping : SameEntries d (d.keeping c p ids) := rfl

/-- Only the grants of the named entries are other values than before. -/
theorem valuesOf_keeping (id : EntryId) (attr : String) :
    (d.keeping c p ids).valuesOf id attr =
      if id ∈ ids ∧ attr = Store.grantAttribute then GrantSet.keptLines c p (d.valuesOf id attr)
      else d.valuesOf id attr := by
  unfold keeping valuesOf Table.get?
  rw [List.find?_map]
  show (((d.attributes.rows.find? (·.1 = (id, attr))).map _).map Prod.snd).getD [] = _
  cases hrow : d.attributes.rows.find? (·.1 = (id, attr)) with
  | none =>
    -- Nothing is stored, and nothing is left.
    by_cases h : id ∈ ids ∧ attr = Store.grantAttribute
    · rw [if_pos h]
      rfl
    · rw [if_neg h]
      rfl
  | some row =>
    have hkey : row.1 = (id, attr) := by simpa using List.find?_some hrow
    simp [hkey]

end Directory

namespace Store

variable {c : Catalog} {d : Directory} {p : Grant → Bool} {ids : List EntryId}

/-- What is read after grants were taken away, without where it was found. -/
theorem fresh_keeping (hp : ∀ g : Grant, p g.unplaced = p g) (e : Entry) :
    (fresh c (.ofDirectory (d.keeping c p ids)) e).unplaced =
      if e.id ∈ ids then (fresh c (.ofDirectory d) e).unplaced.kept p
      else (fresh c (.ofDirectory d) e).unplaced := by
  have hunplaced : ∀ x : Except Error GrantSet, GrantAnswer.unplaced (x.map present) =
      (x.map GrantSet.unplaced).map present := by
    rintro (cause | set)
    · rfl
    · exact congrArg Except.ok set.present_unplaced
  rw [fresh_eq, fresh_eq, hunplaced, hunplaced, d.valuesOf_keeping]
  by_cases he : e.id ∈ ids
  · rw [if_pos ⟨he, rfl⟩, if_pos he, GrantSet.parse_keptLines hp]
    cases GrantSet.parse c e (d.valuesOf e.id grantAttribute) with
    | error cause => rfl
    | ok set => exact congrArg Except.ok set.unplaced.bind_kept_present.symm
  · rw [if_neg he, if_neg (fun h => he h.1)]

end Store

end DirectoryRights
