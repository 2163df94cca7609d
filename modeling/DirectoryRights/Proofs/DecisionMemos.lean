import DirectoryRights.DecisionMemo

/-!
# What a memory of decisions may answer

Whatever a memory answers stands in one of its rows. A new decision adds one row, for its own target
and key and for no made-up target; trimming only takes rows away. A change of the grants on an entry
leaves no row if the entry is no account, and none of the account's own otherwise.
-/

set_option autoImplicit false

namespace DirectoryRights

namespace Table

variable {α β : Type} [DecidableEq α]

/-- After a row was put into a table its rows are this one and those of before. -/
theorem mem_put {key : α} {value : β} {rows : List (α × β)} {row : α × β}
    (h : row ∈ put key value rows) : row = (key, value) ∨ row ∈ rows := by
  induction rows with
  | nil => exact .inl (List.mem_singleton.mp h)
  | cons first rest ih =>
    unfold put at h
    by_cases hkey : first.1 = key
    · rw [if_pos hkey] at h
      rcases List.mem_cons.mp h with hnew | hold
      · exact .inl hnew
      · exact .inr (List.mem_cons_of_mem _ hold)
    · rw [if_neg hkey] at h
      rcases List.mem_cons.mp h with rfl | hrest
      · exact .inr List.mem_cons_self
      · rcases ih hrest with hnew | hold
        · exact .inl hnew
        · exact .inr (List.mem_cons_of_mem _ hold)

/-- A value that is found stands in a row. -/
theorem mem_of_get? {t : Table α β} {key : α} {value : β} (h : t.get? key = some value) :
    (key, value) ∈ t.rows := by
  unfold get? at h
  obtain ⟨row, hfind, hvalue⟩ := Option.map_eq_some_iff.mp h
  have hkey : row.1 = key := by simpa using List.find?_some hfind
  have hrow : row = (key, value) := by rw [← hkey, ← hvalue]
  rw [← hrow]
  exact List.mem_of_find?_eq_some hfind

end Table

namespace DecisionMemo

/-- A decision stands in the row of a target. -/
def Remembers (k : DecisionMemo) (target : EntryId) (key : DecisionKey) (decision : Decision) :
    Prop :=
  ∃ decisions, (target, decisions) ∈ k.targets.rows ∧ (key, decision) ∈ decisions.rows

/-- A memory without decisions remembers none. -/
theorem not_remembers_empty (limit : Nat) (target : EntryId) (key : DecisionKey)
    (decision : Decision) : ¬ (empty limit).Remembers target key decision := by
  rintro ⟨decisions, hmem, -⟩
  cases hmem

/-- The decisions on a target stand in a row. -/
theorem remembers_of_decisionsOf {k : DecisionMemo} {target : EntryId} {key : DecisionKey}
    {decision : Decision} (h : (key, decision) ∈ (k.decisionsOf target).rows) :
    k.Remembers target key decision := by
  unfold decisionsOf at h
  cases hget : k.targets.get? target with
  | none =>
    rw [hget] at h
    cases h
  | some decisions =>
    rw [hget] at h
    exact ⟨decisions, Table.mem_of_get? hget, h⟩

/-- What is answered was remembered. -/
theorem remembers_of_get? {k : DecisionMemo} {p : Principal} {target : Entry} {right : Right}
    {delegate : Bool} {decision : Decision}
    (h : k.get? p target right delegate = some decision) :
    ∃ key, key? p right delegate = some key ∧ k.Remembers target.id key decision := by
  obtain ⟨key, hkey, hget⟩ := Option.bind_eq_some_iff.mp h
  exact ⟨key, hkey, remembers_of_decisionsOf (Table.mem_of_get? hget)⟩

/-- After a new decision the memory knows it and what it knew before. -/
theorem remembers_of_put {k : DecisionMemo} {p : Principal} {target : Entry} {right : Right}
    {delegate : Bool} {decision : Decision} {id : EntryId} {key : DecisionKey} {known : Decision}
    (h : (k.put p target right delegate decision).Remembers id key known) :
    k.Remembers id key known ∨
      id = target.id ∧ key? p right delegate = some key ∧ known = decision ∧
        target.isPseudo = false := by
  unfold put at h
  cases hkey : key? p right delegate with
  | none =>
    rw [hkey] at h
    exact .inl h
  | some own =>
    rw [hkey] at h
    simp only at h
    by_cases hpseudo : target.isPseudo = true
    · rw [if_pos hpseudo] at h
      exact .inl h
    · rw [if_neg hpseudo] at h
      obtain ⟨decisions, hrow, hmem⟩ := h
      rcases Table.mem_put (List.mem_of_mem_drop hrow) with hnew | hold
      · obtain ⟨rfl, rfl⟩ := Prod.mk.inj hnew
        rcases Table.mem_put hmem with hlast | hbefore
        · obtain ⟨rfl, rfl⟩ := Prod.mk.inj hlast
          exact .inr ⟨rfl, rfl, rfl, Bool.eq_false_iff.mpr hpseudo⟩
        · exact .inl (remembers_of_decisionsOf hbefore)
      · exact .inl ⟨decisions, hold, hmem⟩

/-- After a change of the grants on an entry the memory knows nothing new. It knows nothing at all
unless the entry is an account, and then nothing of the account. -/
theorem remembers_of_invalidate {k : DecisionMemo} {target : Entry} {id : EntryId}
    {key : DecisionKey} {decision : Decision}
    (h : (k.invalidate target).Remembers id key decision) :
    k.Remembers id key decision ∧ target.isAccount = true ∧ id ≠ target.id := by
  unfold invalidate at h
  by_cases haccount : target.isAccount = true
  · rw [if_pos haccount] at h
    obtain ⟨decisions, hrow, hmem⟩ := h
    obtain ⟨hold, hid⟩ := List.mem_filter.mp hrow
    exact ⟨⟨decisions, hold, hmem⟩, haccount, of_decide_eq_true hid⟩
  · rw [if_neg haccount] at h
    obtain ⟨decisions, hrow, -⟩ := h
    cases hrow

end DecisionMemo

end DirectoryRights
