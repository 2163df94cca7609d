import Mathlib.Data.List.Forall2
import DirectoryRights.Proofs.Line
import DirectoryRights.Proofs.Sample
import DirectoryRights.Proofs.Slots
import DirectoryRights.Proofs.Writes

/-!
# What is granted can be read again

After a request for grants the stored lines are those of the merged set. They are read back as this
set exactly if every grant of the set has a line that can be read back. The grants that were stored
before have such lines, because they were read. A given grant need not have one: what a request
refuses leaves out identifiers that are none, names of rights that look like a modifier and the rest
of a name, names with a space in them, empty grantees and empty secrets. One such grant makes all
the grants of its entry unreadable, or it comes back as another grant.
-/

set_option autoImplicit false

namespace DirectoryRights

/-- The grant as it is found on an entry. -/
def Grant.foundOn (e : Entry) (g : Grant) : Grant :=
  { g with origin := some { targetType := e.targetType, targetName := e.name } }

/-- The rights of all grants in a list are in the catalog or spelled out by their names. -/
def Catalog.Knows (c : Catalog) (gs : List Grant) : Prop :=
  ∀ g ∈ gs, c.lookup g.right.name = .ok g.right

section Sequences

variable {α β : Type} {f : α → Except Error β}

/-- A list of computations succeeds where each of them does. -/
theorem mapM_eq_ok {xs : List α} {ys : List β} :
    xs.mapM f = .ok ys ↔ List.Forall₂ (fun x y => f x = .ok y) xs ys := by
  induction xs generalizing ys with
  | nil => cases ys <;> simp [pure, Except.pure]
  | cons x rest ih =>
    rw [List.mapM_cons]
    cases hx : f x with
    | error e => cases ys <;> simp [bind, Except.bind, hx]
    | ok y =>
      cases hrest : rest.mapM f with
      | error e => cases ys <;> simp [bind, Except.bind, ← ih, hx, hrest]
      | ok others =>
        cases ys <;> simp [bind, Except.bind, pure, Except.pure, ← ih, hx, hrest]

/-- Each result of a list of attempts comes from one of them. -/
theorem exists_of_mapM {xs : List α} {ys : List β} (h : xs.mapM f = .ok ys) {y : β}
    (hy : y ∈ ys) : ∃ x ∈ xs, f x = .ok y := by
  rw [mapM_eq_ok] at h
  induction h with
  | nil => cases hy
  | @cons x first xs ys hfirst _ ih =>
    rcases List.mem_cons.mp hy with rfl | hmem
    · exact ⟨x, List.mem_cons_self, hfirst⟩
    · obtain ⟨x', hx', hfound⟩ := ih hmem
      exact ⟨x', List.mem_cons_of_mem _ hx', hfound⟩

end Sequences

namespace GrantSet

variable {c : Catalog}

/-- Several lines are read one after the other. -/
theorem mapM_parse_cons (line : String) (lines : List String) :
    (line :: lines).mapM (Grant.parse c) =
      (Grant.parse c line).bind fun g => (lines.mapM (Grant.parse c)).map (g :: ·) := by
  rw [List.mapM_cons]
  cases Grant.parse c line with
  | error e => rfl
  | ok g => cases lines.mapM (Grant.parse c) <;> rfl

/-- Every grant that is read comes from one of the lines. -/
theorem exists_line_of_mapM {lines : List String} {gs : List Grant}
    (h : lines.mapM (Grant.parse c) = .ok gs) {g : Grant} (hg : g ∈ gs) :
    ∃ line ∈ lines, Grant.parse c line = .ok g :=
  exists_of_mapM h hg

/-- Every grant of a stored set is read from one of its lines. -/
theorem exists_line_of_parse {e : Entry} {lines : List String} {set : GrantSet}
    (h : parse c e lines = .ok set) {g : Grant} (hg : g ∈ set.grants) :
    ∃ line ∈ lines, Grant.parse c line = .ok g.unplaced := by
  obtain ⟨gs, hgs, rfl⟩ := exists_of_map_eq_ok h
  obtain ⟨read, hread, rfl⟩ := List.mem_map.mp (mem_ofList hg)
  obtain ⟨line, hline, hparse⟩ := exists_line_of_mapM hgs hread
  refine ⟨line, hline, ?_⟩
  obtain ⟨field, right, hfields⟩ := Grant.read_of_parse hparse
  rw [hparse]
  unfold Grant.unplaced
  rw [← hfields.origin]

/-- What was stored can be written again, and its rights are known. -/
theorem writable_of_stored {e : Entry} {lines : List String} {set : GrantSet}
    (h : parse c e lines = .ok set) {g : Grant} (hg : g ∈ set.grants) :
    g.Writable ∧ c.lookup g.right.name = .ok g.right := by
  obtain ⟨line, -, hparse⟩ := exists_line_of_parse h hg
  have hwritable := Grant.writable_of_parse hparse
  obtain ⟨field, right, hread⟩ := Grant.read_of_parse hparse
  exact ⟨⟨hwritable.oneField, hwritable.unmarked, hwritable.grantee⟩, hread.found⟩

/-- In a set that is read from lines each slot has one grant. -/
theorem distinct_of_parse {e : Entry} {lines : List String} {set : GrantSet}
    (h : parse c e lines = .ok set) : set.Distinct := by
  obtain ⟨gs, -, rfl⟩ := exists_of_map_eq_ok h
  exact distinct_ofList _

/-- The lines of grants that can be read back are read as these grants. -/
theorem mapM_parse_lines {gs : List Grant} (hknown : c.Knows gs)
    (hwritable : ∀ g ∈ gs, g.Writable) :
    (gs.map Grant.line).mapM (Grant.parse c) = .ok (gs.map Grant.unplaced) := by
  induction gs with
  | nil => rfl
  | cons g rest ih =>
    rw [List.map_cons, mapM_parse_cons,
      Grant.parse_line (hknown g List.mem_cons_self) (hwritable g List.mem_cons_self),
      ih (fun h hh => hknown h (List.mem_cons_of_mem _ hh))
        fun h hh => hwritable h (List.mem_cons_of_mem _ hh)]
    rfl

/-- The lines of a set of grants that can be read back are read as this set. -/
theorem parse_lines {set : GrantSet} (hdistinct : set.Distinct) (hknown : c.Knows set.grants)
    (hwritable : ∀ g ∈ set.grants, g.Writable) (e : Entry) :
    parse c e set.lines = .ok ⟨set.all.map (Grant.foundOn e)⟩ := by
  have hmem : ∀ g, g ∈ set.all → g ∈ set.grants := fun g => Grant.mem_ranked.mp
  unfold parse lines
  rw [mapM_parse_lines (fun g hg => hknown g (hmem g hg)) fun g hg => hwritable g (hmem g hg)]
  have hfound : (set.all.map Grant.unplaced).map (Grant.foundOn e) =
      set.all.map (Grant.foundOn e) := by
    rw [List.map_map]
    rfl
  have hslots : ((set.all.map (Grant.foundOn e)).map Grant.slot).Nodup := by
    rw [List.map_map]
    exact ((Grant.ranked_perm set.grants).map Grant.slot).nodup_iff.mpr hdistinct
  show Except.ok (ofList ((set.all.map Grant.unplaced).map (Grant.foundOn e))) = _
  rw [hfound, ofList_of_nodup hslots]

end GrantSet

namespace Store

variable {c : Catalog}

/-- What is read of an entry is what its lines say. -/
theorem parse_of_read {s : Store} {e : Entry} {set : GrantSet} (h : s.read c e = .ok set) :
    GrantSet.parse c e (s.directory.valuesOf e.id grantAttribute) = .ok set := by
  unfold read Store.values Outage.guard at h
  cases hfind : s.outages.find? (·.hits .readValues (Outage.namesOf e)) with
  | some outage =>
    rw [hfind] at h
    cases h
  | none =>
    rw [hfind] at h
    exact h

/-- After a request for grants that is not refused, the grants of the entry are read as the merged
set exactly if each given grant that is in this set has a line that can be read back. -/
theorem reread_iff {s t : Store} {target : Entry} {gs changed : List Grant} {set : GrantSet}
    (hknown : c.Knows gs) (hread : s.read c target = .ok set)
    (h : s.grant c target gs = .ok (changed, t)) :
    (∃ reread, t.read c target = .ok reread ∧
      reread.all.map Grant.unplaced = (set.grant gs).1.all.map Grant.unplaced) ↔
      ∀ g ∈ (set.grant gs).1.grants, g ∈ gs → g.Writable := by
  have hstored := parse_of_read hread
  obtain ⟨found, hfound, hchanged, hcases⟩ := changed_of_grant h
  obtain rfl : set = found := Except.ok.inj (hread.symm.trans hfound)
  constructor
  · rintro ⟨reread, hreread, hsame⟩ g hg -
    -- What is read again can be written, and the merged set is what is read again.
    have hmem : g.unplaced ∈ reread.all.map Grant.unplaced := by
      rw [hsame]
      exact List.mem_map_of_mem (Grant.mem_ranked.mpr hg)
    obtain ⟨again, hagain, heq⟩ := List.mem_map.mp hmem
    have hwritable := (GrantSet.writable_of_stored (parse_of_read hreread)
      (Grant.mem_ranked.mp hagain)).1
    have hunplaced : again.unplaced.Writable :=
      ⟨hwritable.oneField, hwritable.unmarked, hwritable.grantee⟩
    rw [heq] at hunplaced
    exact ⟨hunplaced.oneField, hunplaced.unmarked, hunplaced.grantee⟩
  · intro hgiven
    rcases hcases with ⟨hnone, rfl⟩ | ⟨-, hwritten⟩
    · rw [hnone] at hchanged
      exact ⟨set, hread, by rw [GrantSet.grant_of_unchanged hchanged.symm]⟩
    · have hdistinct := (GrantSet.distinct_of_parse hstored).grant gs
      have hknownMerged : c.Knows (set.grant gs).1.grants := by
        intro g hg
        rcases GrantSet.mem_grant hg with hold | hnew
        · exact (GrantSet.writable_of_stored hstored hold).2
        · exact hknown g hnew
      have hwritable : ∀ g ∈ (set.grant gs).1.grants, g.Writable := by
        intro g hg
        rcases GrantSet.mem_grant hg with hold | hnew
        · exact (GrantSet.writable_of_stored hstored hold).1
        · exact hgiven g hg hnew
      refine ⟨_, (hwritten.read_target hread).trans
        (GrantSet.parse_lines hdistinct hknownMerged hwritable target), ?_⟩
      unfold GrantSet.all
      rw [← Grant.ranked_map_unplaced, List.map_map, ← Grant.ranked_map_unplaced]
      show Grant.ranked ((Grant.ranked _).map Grant.unplaced) = _
      rw [Grant.ranked_map_unplaced, Grant.ranked_ranked, Grant.ranked_map_unplaced]

/-- A grant to Bob on Ann's account is read again as it was given. -/
theorem reread_iff_sample :
    ∃ changed t reread,
      (Store.ofDirectory (Sample.directoryWith [])).grant Sample.control.catalog Sample.ann
        [Sample.grantTo Sample.bob.id.text] = .ok (changed, t) ∧
      t.read Sample.control.catalog Sample.ann = .ok reread ∧
      reread.all.map Grant.unplaced =
        (GrantSet.empty.grant [Sample.grantTo Sample.bob.id.text]).1.all.map Grant.unplaced := by
  obtain ⟨⟨changed, t⟩, h⟩ := exists_ok_of_isOk
    (x := (Store.ofDirectory (Sample.directoryWith [])).grant Sample.control.catalog Sample.ann
      [Sample.grantTo Sample.bob.id.text]) (by decide +kernel)
  have hknown : Sample.control.catalog.Knows [Sample.grantTo Sample.bob.id.text] := by
    intro g hg
    rw [List.mem_singleton.mp hg]
    rfl
  have hread : (Store.ofDirectory (Sample.directoryWith [])).read Sample.control.catalog
      Sample.ann = .ok .empty := rfl
  obtain ⟨reread, hreread, hsame⟩ := (reread_iff hknown hread h).mpr <| by
    intro g _ hg
    rw [List.mem_singleton.mp hg]
    refine ⟨by decide +kernel, fun _ => ⟨'s', "endAs".toList, by decide +kernel, by decide⟩, ?_⟩
    refine ⟨rfl, by decide +kernel, fun _ => by decide +kernel⟩
  exact ⟨changed, t, reread, h, hreread, hsame⟩

/-- A grant to a grantee without a proper id is accepted, and afterwards nothing can be read. -/
theorem grant_not_reread :
    Catalog.ofDefinitions [Sample.definition] = .ok Sample.control.catalog ∧ ∃ changed t,
      (Store.ofDirectory (Sample.directoryWith [])).grant Sample.control.catalog Sample.ann
        [Sample.grantTo "bob"] = .ok (changed, t) ∧
      (t.read Sample.control.catalog Sample.ann).isOk = false := by
  obtain ⟨⟨changed, t⟩, h, hread⟩ := exists_ok_of_any
    (x := (Store.ofDirectory (Sample.directoryWith [])).grant Sample.control.catalog Sample.ann
      [Sample.grantTo "bob"])
    (p := fun granted => !(granted.2.read Sample.control.catalog Sample.ann).isOk)
    (by decide +kernel)
  exact ⟨Sample.catalog_built, changed, t, h, Bool.not_eq_true' _ ▸ hread⟩

end Store

end DirectoryRights
