import DirectoryRights.Store.Sharing
import DirectoryRights.Proofs.Recall

/-!
# What a change of grants writes

A change reads the stored set and, if it changes it, writes the new set as the grants of its target.
Nothing else is touched: the values of other attributes and entries, who is in the directory and who
belongs to which group stay, and of the sets that were read only that of the target is forgotten. A
change that is refused, or that changes nothing, leaves the whole store as it was.
-/

set_option autoImplicit false

namespace DirectoryRights

namespace Directory

/-- The two directories differ in nothing but attributes and the number of writes. -/
def SameEntries (d e : Directory) : Prop :=
  e = { d with attributes := e.attributes, writes := e.writes }

/-- Directories that differ in attributes alone have the same levels of groups. -/
theorem SameEntries.levels {d e : Directory} (h : SameEntries d e) (rounds : Nat)
    (met level : List EntryId) : e.levels rounds met level = d.levels rounds met level := by
  induction rounds generalizing met level with
  | zero => rfl
  | succ rounds ih =>
    have hnext : ∀ met, e.nextLevel met level = d.nextLevel met level := by
      rw [h]
      exact fun _ => rfl
    simp only [Directory.levels, hnext, ih]

/-- Directories that differ in attributes alone have the same memberships. -/
theorem SameEntries.membership {d e : Directory} (h : SameEntries d e) (entry : Entry)
    (adminOnly : Bool) : e.membership entry adminOnly = d.membership entry adminOnly := by
  have habove : e.levelsAbove entry.id = d.levelsAbove entry.id := by
    unfold levelsAbove
    rw [h.levels, h]
    rfl
  have haffiliation : e.affiliation? = d.affiliation? := by
    rw [h]
    rfl
  unfold Directory.membership allGroups
  rw [habove, haffiliation]

/-- A check sees the same directory. -/
theorem SameEntries.view {d e : Directory} (h : SameEntries d e) : e.view = d.view := by
  have hmembership : e.view.membership = d.view.membership := by
    funext entry adminOnly
    exact congrArg Except.ok (h.membership entry adminOnly)
  have hrest : ∀ m, { e.view with membership := m } = { d.view with membership := m } := by
    intro m
    rw [h]
    rfl
  have hview := hrest d.view.membership
  rw [← hmembership] at hview
  exact hview.trans (by rw [hmembership])

/-- Such directories can be compared step by step. -/
theorem SameEntries.trans {d e f : Directory} (hde : SameEntries d e) (hef : SameEntries e f) :
    SameEntries d f := by
  unfold SameEntries at hde hef ⊢
  rw [hde] at hef
  exact hef

/-- The values that were set are found under their entry and attribute, and all others are as
before. -/
theorem valuesOf_setValues (d : Directory) (id : EntryId) (attr : String) (values : List String)
    (other : EntryId) (name : String) :
    (d.setValues id attr values).valuesOf other name =
      if (other, name) = (id, attr) then values else d.valuesOf other name := by
  unfold setValues valuesOf
  rw [Table.get?_insert]
  by_cases h : (other, name) = (id, attr)
  · simp [h]
  · simp [h]

/-- Setting values changes nothing about the entries. -/
theorem sameEntries_setValues (d : Directory) (id : EntryId) (attr : String)
    (values : List String) : SameEntries d (d.setValues id attr values) := rfl

/-- What is stored after values were written: the values in their place, or nothing there. -/
theorem get?_writeAttribute (d : Directory) (id : EntryId) (attr : String) (values : List String)
    (key : EntryId × String) :
    (d.writeAttribute id (attr, values)).attributes.get? key =
      if key = (id, attr) then (if values = [] then none else some values)
      else d.attributes.get? key := by
  cases values with
  | nil =>
    simp only [writeAttribute, if_true]
    exact Table.get?_erase d.attributes (id, attr) key
  | cons value rest =>
    rw [if_neg (List.cons_ne_nil value rest)]
    exact Table.get?_insert d.attributes (id, attr) (value :: rest) key

/-- Writing values puts them in the place of the old ones; taking all of them away leaves none. -/
theorem valuesOf_writeAttribute (d : Directory) (id : EntryId) (attr : String)
    (values : List String) (other : EntryId) (name : String) :
    (d.writeAttribute id (attr, values)).valuesOf other name =
      if (other, name) = (id, attr) then values else d.valuesOf other name := by
  unfold valuesOf
  rw [get?_writeAttribute]
  by_cases hkey : (other, name) = (id, attr)
  · rw [if_pos hkey, if_pos hkey]
    cases values <;> rfl
  · rw [if_neg hkey, if_neg hkey]

/-- Writing an attribute changes nothing about the entries. -/
theorem sameEntries_writeAttribute (d : Directory) (id : EntryId) (attr : String)
    (values : List String) : SameEntries d (d.writeAttribute id (attr, values)) := by
  cases values <;> rfl

end Directory

namespace Store

/-- The directory takes a write on an entry: it has the entry, and no outage is in the way. -/
structure CanWrite (s : Store) (target : Entry) : Prop where
  /-- The entry is in the directory. -/
  found : (s.directory.entry? target.id).isSome = true
  /-- Writing is in service for the entry. -/
  inService : s.outages.find? (·.hits .modify (Outage.namesOf target)) = none

/-- The store after lines were written as the grants of an entry. -/
def written (s : Store) (target : Entry) (lines : List String) : Store :=
  let directory := s.directory.writeAttribute target.id (grantAttribute, lines)
  { s with directory := { directory with writes := directory.writes + 1 } }.forget target.id

/-- A set is written exactly if the directory takes it, and then its lines are stored. -/
theorem write_eq_ok {s t : Store} {target : Entry} {set : GrantSet} :
    s.write target set = .ok t ↔ s.CanWrite target ∧ t = s.written target set.lines := by
  unfold write modify Outage.guard
  cases hservice : s.outages.find? (·.hits .modify (Outage.namesOf target)) with
  | some outage =>
    constructor
    · intro h
      cases h
    · rintro ⟨⟨-, hnone⟩, -⟩
      rw [hservice] at hnone
      cases hnone
  | none =>
    unfold Directory.modify
    cases hentry : s.directory.entry? target.id with
    | none =>
      constructor
      · intro h
        cases h
      · rintro ⟨⟨hfound, -⟩, -⟩
        rw [hentry] at hfound
        cases hfound
    | some stored =>
      constructor
      · intro h
        cases h
        exact ⟨⟨by rw [hentry]; rfl, hservice⟩, rfl⟩
      · rintro ⟨-, rfl⟩
        rfl

/-- A changed set is written if there is a change, and then the directory has to take it. -/
theorem commit_eq_ok {s t : Store} {target : Entry} {after : GrantSet}
    {reported changed : List Grant} :
    s.commit target (after, reported) = .ok (changed, t) ↔ changed = reported ∧
      (reported = [] ∧ t = s ∨
        reported ≠ [] ∧ s.CanWrite target ∧ t = s.written target after.lines) := by
  cases reported with
  | nil =>
    constructor
    · intro h
      cases h
      exact ⟨rfl, .inl ⟨rfl, rfl⟩⟩
    · rintro ⟨rfl, ⟨-, rfl⟩ | ⟨hne, -⟩⟩
      · rfl
      · exact absurd rfl hne
  | cons g rest =>
    have hcommit : s.commit target (after, g :: rest) =
        (s.write target after).map (g :: rest, ·) := rfl
    rw [hcommit]
    constructor
    · intro h
      obtain ⟨store, hwrite, hresult⟩ := exists_of_map_eq_ok h
      obtain ⟨hcan, hstore⟩ := write_eq_ok.mp hwrite
      cases hresult
      exact ⟨rfl, .inr ⟨List.cons_ne_nil _ _, hcan, hstore⟩⟩
    · rintro ⟨rfl, ⟨hnil, -⟩ | ⟨-, hcan, rfl⟩⟩
      · cases hnil
      · rw [write_eq_ok.mpr ⟨hcan, rfl⟩]
        rfl

/-- A commit goes through exactly if there is nothing to commit or the directory takes the write. -/
theorem isOk_commit {s : Store} {target : Entry} {after : GrantSet} {reported : List Grant} :
    (s.commit target (after, reported)).isOk = true ↔ reported = [] ∨ s.CanWrite target := by
  constructor
  · intro h
    obtain ⟨⟨changed, t⟩, hcommit⟩ := exists_ok_of_isOk h
    obtain ⟨-, ⟨hnil, -⟩ | ⟨-, hcan, -⟩⟩ := commit_eq_ok.mp hcommit
    · exact .inl hnil
    · exact .inr hcan
  · intro h
    by_cases hnil : reported = []
    · rw [commit_eq_ok.mpr ⟨rfl, .inl ⟨hnil, rfl⟩⟩]
      rfl
    · rw [commit_eq_ok.mpr ⟨rfl, .inr ⟨hnil, h.resolve_left hnil, rfl⟩⟩]
      rfl

/-- The second store is the first one after lines were written as the grants of an entry. -/
structure Written (target : Entry) (lines : List String) (s t : Store) : Prop where
  /-- The entry is in the directory. -/
  found : (s.directory.entry? target.id).isSome
  /-- Only attributes were written. -/
  entries : Directory.SameEntries s.directory t.directory
  /-- The lines are stored on the entry, and nothing else has changed. -/
  values : ∀ id attr, t.directory.valuesOf id attr =
    if (id, attr) = (target.id, grantAttribute) then lines else s.directory.valuesOf id attr
  /-- The outages are the same. -/
  outages : t.outages = s.outages
  /-- The set of the entry is forgotten. -/
  memo : t.memo = s.memo.erase target.id

variable {c : Catalog}

/-- Where the directory takes a write, it stores the lines and nothing else. -/
theorem CanWrite.written {s : Store} {target : Entry} (h : s.CanWrite target)
    (lines : List String) : Written target lines s (s.written target lines) := by
  have hsame := s.directory.sameEntries_writeAttribute target.id grantAttribute lines
  refine ⟨h.found, ?_, ?_, rfl, rfl⟩
  · exact hsame.trans rfl
  · exact s.directory.valuesOf_writeAttribute target.id grantAttribute lines

/-- Writing a set stores its lines. -/
theorem written_of_write {s t : Store} {target : Entry} {set : GrantSet}
    (h : s.write target set = .ok t) : Written target set.lines s t := by
  obtain ⟨hcan, rfl⟩ := write_eq_ok.mp h
  exact hcan.written set.lines

/-- The second store and the reported grants come out of a change: the stored set was read, and what
follows from it was written if the change is one. -/
def Changed (c : Catalog) (target : Entry) (change : GrantSet → GrantSet × List Grant)
    (changed : List Grant) (s t : Store) : Prop :=
  ∃ set, s.read c target = .ok set ∧ changed = (change set).2 ∧
    (changed = [] ∧ t = s ∨ changed ≠ [] ∧ Written target (change set).1.lines s t)

/-- What a commit of a changed set leaves behind is a change of the stored set. -/
theorem changed_of_commit {s t : Store} {target : Entry}
    {change : GrantSet → GrantSet × List Grant} {changed : List Grant}
    (h : ((s.read c target).bind fun set => s.commit target (change set)) = .ok (changed, t)) :
    Changed c target change changed s t := by
  obtain ⟨set, hread, hcommit⟩ := exists_of_bind_eq_ok h
  obtain ⟨rfl, hstore⟩ := commit_eq_ok.mp hcommit
  refine ⟨set, hread, rfl, hstore.imp_right ?_⟩
  rintro ⟨hne, hcan, rfl⟩
  exact ⟨hne, hcan.written _⟩

/-- What a successful request for grants does. -/
theorem changed_of_grant {s t : Store} {target : Entry} {gs changed : List Grant}
    (h : s.grant c target gs = .ok (changed, t)) :
    Changed c target (·.grant gs) changed s t := by
  unfold grant at h
  cases hobjection : gs.findSome? (objection? target) with
  | some objection =>
    rw [hobjection] at h
    cases h
  | none =>
    rw [hobjection] at h
    exact changed_of_commit h

/-- What a successful request to take grants away does. -/
theorem changed_of_revoke {s t : Store} {target : Entry} {gs changed : List Grant}
    (h : s.revoke c target gs = .ok (changed, t)) :
    Changed c target (·.revoke gs) changed s t :=
  changed_of_commit h

/-- A request for grants that end does what a request for grants does. -/
theorem changed_of_grantUntil {s t : Store} {target : Entry} {gs : List Grant}
    {maxLifetime now : Int} {expiry : Option String} {changed : List Grant} {ending : Int}
    (h : s.grantUntil c maxLifetime target gs expiry now = .ok ((changed, ending), t)) :
    Changed c target (·.grant gs) changed s t := by
  unfold grantUntil at h
  cases hadmin : gs.find? (!·.right.isUserRight) with
  | some g =>
    rw [hadmin] at h
    cases h
  | none =>
    rw [hadmin] at h
    obtain ⟨decided, -, hbind⟩ := exists_of_bind_eq_ok h
    obtain ⟨outcome, hgrant, hresult⟩ := exists_of_map_eq_ok hbind
    cases hresult
    exact changed_of_grant hgrant

/-- What is read of the target after lines were written, if it could be read before. -/
theorem Written.read_target {s t : Store} {target : Entry} {lines : List String}
    (h : Written target lines s t) {set : GrantSet} (hread : s.read c target = .ok set) :
    t.read c target = GrantSet.parse c target lines := by
  unfold read Store.values Outage.guard at hread ⊢
  rw [h.outages]
  cases hfind : s.outages.find? (·.hits .readValues (Outage.namesOf target)) with
  | some outage =>
    rw [hfind] at hread
    cases hread
  | none =>
    simp only [h.values, if_true]
    rfl

/-- What is read of another entry is the same as before. -/
theorem Written.read_other {s t : Store} {target : Entry} {lines : List String}
    (h : Written target lines s t) (hs : s.outages = []) {e : Entry} (he : e.id ≠ target.id) :
    t.read c e = s.read c e := by
  have hvalues : t.directory.valuesOf e.id grantAttribute =
      s.directory.valuesOf e.id grantAttribute := by
    rw [h.values, if_neg fun hsame => he (Prod.mk.inj hsame).1]
  rw [Store.read_eq c (h.outages.trans hs), Store.read_eq c hs, hvalues]

end Store

end DirectoryRights
