import Mathlib.Data.List.Induction
import DirectoryRights.Proofs.Distances
import DirectoryRights.Proofs.Reach

/-!
# How a directory fills

A directory fills as entries come in and are put into groups. An entry that comes in under an id of
the directory takes the place of the one that was there, while the index of domains goes on leading
to the id under both names. Where every id comes in once nobody is replaced, and the index leads
under every name to a domain of this name, whatever the case of its letters.
-/

set_option autoImplicit false

namespace DirectoryRights

/-- A step in the filling of a directory. -/
inductive Arrival where
  /-- An entry comes in. -/
  | entry (e : Entry)
  /-- A member is put into a group. -/
  | membership (group member : EntryId)

/-- The ids under which entries come in. -/
def Arrival.ids (arrivals : List Arrival) : List EntryId :=
  arrivals.filterMap fun
    | entry e => some e.id
    | membership _ _ => none

/-- The ids of the groups into which members are put. -/
def Arrival.groups (arrivals : List Arrival) : List EntryId :=
  arrivals.filterMap fun
    | entry _ => none
    | membership group _ => some group

namespace Directory

/-- The directory after a step. -/
def receive (d : Directory) : Arrival → Directory
  | .entry e => d.add e
  | .membership group member => d.enroll group member

/-- The directory that is filled by some steps. -/
def filled (arrivals : List Arrival) : Directory :=
  arrivals.foldl receive empty

/-- Every name in the index of domains leads to a domain of this name. -/
def Indexed (d : Directory) : Prop :=
  ∀ key id, d.domainIds.get? key = some id →
    ∃ e, d.entry? id = some e ∧ e.isDomain = true ∧ Text.lower e.name = key

variable {d : Directory}

/-- What comes in last is received by the directory that all before has filled. -/
theorem filled_concat (arrivals : List Arrival) (a : Arrival) :
    filled (arrivals ++ [a]) = (filled arrivals).receive a := by
  unfold filled
  rw [List.foldl_append]
  rfl

/-- An entry that is found by an id has this id. -/
theorem id_of_found {id : EntryId} {e : Entry} (h : d.entry? id = some e) : e.id = id := by
  simpa using List.find?_some h

/-- After an entry was put into a list, its id leads to it and every other id to what it led to. -/
theorem find?_put (e : Entry) (entries : List Entry) (id : EntryId) :
    (put e entries).find? (·.id = id) =
      if id = e.id then some e else entries.find? (·.id = id) := by
  induction entries with
  | nil =>
    by_cases hid : id = e.id
    · simp [put, hid]
    · simp [put, hid, Ne.symm hid]
  | cons other rest ih =>
    rw [put]
    by_cases hsame : other.id = e.id
    · rw [if_pos hsame]
      by_cases hid : id = e.id
      · simp [hid]
      · have hother : ¬ other.id = id := fun h => hid (h.symm.trans hsame)
        simp [hid, Ne.symm hid, hother]
    · rw [if_neg hsame]
      by_cases hfound : other.id = id
      · have hid : ¬ id = e.id := fun h => hsame (hfound.trans h)
        simp [hfound, hid]
      · simpa [hfound] using ih

/-- An entry that is added is found by its id, and all others are found as before. -/
theorem entry?_add (d : Directory) (e : Entry) (id : EntryId) :
    entry? (d.add e) id = if id = e.id then some e else d.entry? id :=
  find?_put e d.entries id

/-- Memberships change nothing about entries. -/
theorem entry?_enroll (d : Directory) (group member id : EntryId) :
    entry? (d.enroll group member) id = d.entry? id := by
  unfold enroll entry?
  simp only
  split <;> rfl

/-- Memberships change nothing about the index of domains. -/
theorem domainIds_enroll (d : Directory) (group member : EntryId) :
    (d.enroll group member).domainIds = d.domainIds := by
  unfold enroll
  simp only
  split <;> rfl

/-- When a domain comes in the index leads to it from its name, and from the other names to where it
led before. -/
theorem get?_domainIds_add (d : Directory) (e : Entry) (key : String) :
    (d.add e).domainIds.get? key =
      if e.isDomain = true ∧ Text.lower e.name = key then some e.id else d.domainIds.get? key := by
  unfold add
  by_cases hdomain : e.isDomain = true
  · simp only [hdomain, if_true, true_and, Table.get?_insert, eq_comm]
  · simp only [hdomain, Bool.false_eq_true, if_false, false_and]

/-- What the index leads to after an entry was added: this entry by its own name if it is a domain,
or what it led to before. -/
theorem domainIds_of_add {e : Entry} {key : String} {id : EntryId}
    (h : (d.add e).domainIds.get? key = some id) :
    id = e.id ∧ e.isDomain = true ∧ Text.lower e.name = key ∨
      d.domainIds.get? key = some id := by
  rw [get?_domainIds_add] at h
  split at h
  · exact .inl ⟨(Option.some.inj h).symm, ‹_›⟩
  · exact .inr h

/-- The index of an empty directory is true. -/
theorem indexed_empty : empty.Indexed := by
  intro key id h
  cases h

/-- The index stays true when an entry comes in under an id to which it does not lead. -/
theorem Indexed.add (h : d.Indexed) {e : Entry}
    (hnew : ∀ key, d.domainIds.get? key ≠ some e.id) : (d.add e).Indexed := by
  intro key id hkey
  rw [entry?_add]
  rcases domainIds_of_add hkey with ⟨rfl, hdomain, hname⟩ | hold
  · exact ⟨e, if_pos rfl, hdomain, hname⟩
  · have hid : id ≠ e.id := fun heq => hnew key (heq ▸ hold)
    rw [if_neg hid]
    exact h key id hold

/-- A membership leaves the index true. -/
theorem Indexed.enroll (h : d.Indexed) (group member : EntryId) :
    (d.enroll group member).Indexed := by
  intro key id hkey
  rw [domainIds_enroll] at hkey
  rw [entry?_enroll]
  exact h key id hkey

/-- The index leads to ids that came in. -/
theorem mem_ids_of_domainIds {arrivals : List Arrival} {key : String} {id : EntryId}
    (h : (filled arrivals).domainIds.get? key = some id) : id ∈ Arrival.ids arrivals := by
  induction arrivals using List.reverseRecOn with
  | nil => cases h
  | append_singleton arrivals a ih =>
    unfold Arrival.ids
    rw [List.filterMap_append, List.mem_append]
    rw [filled_concat] at h
    cases a with
    | entry e =>
      rcases domainIds_of_add h with ⟨rfl, -, -⟩ | hold
      · exact .inr List.mem_cons_self
      · exact .inl (ih hold)
    | membership group member =>
      unfold receive at h
      rw [domainIds_enroll] at h
      exact .inl (ih h)

/-- Where every id comes in once, the index of domains is true. -/
theorem indexed_filled {arrivals : List Arrival} (h : (Arrival.ids arrivals).Nodup) :
    (filled arrivals).Indexed := by
  induction arrivals using List.reverseRecOn with
  | nil => exact indexed_empty
  | append_singleton arrivals a ih =>
    unfold Arrival.ids at h
    rw [List.filterMap_append, List.nodup_append] at h
    obtain ⟨hbefore, -, hfresh⟩ := h
    rw [filled_concat]
    cases a with
    | entry e =>
      -- The index leads only to what came before, and the id of the entry is new.
      refine (ih hbefore).add fun key hkey => ?_
      exact hfresh e.id (mem_ids_of_domainIds hkey) e.id List.mem_cons_self rfl
    | membership group member => exact (ih hbefore).enroll group member

/-- A domain found by a name has this name, whatever the case of its letters. -/
theorem Indexed.of_domainNamed? (h : d.Indexed) {name : String} {e : Entry}
    (he : d.domainNamed? name = some e) :
    d.entry? e.id = some e ∧ e.isDomain = true ∧ Text.lower e.name = Text.lower name := by
  obtain ⟨id, hid, hentry⟩ := Option.bind_eq_some_iff.mp he
  obtain ⟨found, hfound, hdomain, hname⟩ := h _ _ hid
  obtain rfl : found = e := Option.some.inj (hfound.symm.trans hentry)
  rw [id_of_found hentry]
  exact ⟨hentry, hdomain, hname⟩

/-- Only groups into which somebody was put have members. -/
theorem mem_groups_of_hasMember {arrivals : List Arrival} {group : EntryId}
    (h : (filled arrivals).HasMember group) : group ∈ Arrival.groups arrivals := by
  induction arrivals using List.reverseRecOn with
  | nil =>
    obtain ⟨member, hmember⟩ := h
    cases hmember
  | append_singleton arrivals a ih =>
    unfold Arrival.groups
    rw [List.filterMap_append, List.mem_append]
    rw [filled_concat] at h
    obtain ⟨member, hmember⟩ := h
    cases a with
    | entry e => exact .inl (ih ⟨member, hmember⟩)
    | membership outer newcomer =>
      rcases mem_parentsOf_enroll.mp hmember with hold | ⟨rfl, -⟩
      · exact .inl (ih ⟨member, hold⟩)
      · exact .inr List.mem_cons_self

end Directory

end DirectoryRights
