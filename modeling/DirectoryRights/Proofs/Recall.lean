import DirectoryRights.Store
import DirectoryRights.Proofs.Reading

/-!
# Reading through the memo

A store answers a question from its memo or, where the memo has no set, from the stored lines, and
then remembers the set. What it remembers in the course of a computation it never forgets or changes
before the end. So the whole computation can be understood from its end: its result is the one that
the answers of the last store would have given from the beginning, and what the last store remembers
is what the first one did and what was read on the way.
-/

set_option autoImplicit false

namespace DirectoryRights.Store

variable {α : Type} (c : Catalog)

/-- Without outages the grants of an entry are those of the lines stored under its id. -/
theorem read_eq {s : Store} (h : s.outages = []) (e : Entry) :
    s.read c e = GrantSet.parse c e (s.directory.valuesOf e.id grantAttribute) := by
  unfold read values
  rw [h]
  rfl

/-- Whether lines can be read does not depend on the entry that stores them. -/
theorem isOk_parse (e f : Entry) (lines : List String) :
    (GrantSet.parse c e lines).isOk = (GrantSet.parse c f lines).isOk := by
  unfold GrantSet.parse
  cases lines.mapM (Grant.parse c) <;> rfl

/-- An outcome that is no failure has a result. -/
theorem exists_ok_of_isOk {α ε : Type} {x : Except ε α} (h : x.isOk = true) :
    ∃ a, x = .ok a := by
  cases x with
  | error e => cases h
  | ok a => exact ⟨a, rfl⟩

/-- An outcome that passes a test has a result that passes it. -/
theorem exists_ok_of_any {α ε : Type} {x : Except ε α} {p : α → Bool}
    (h : x.toOption.any p = true) : ∃ a, x = .ok a ∧ p a = true := by
  cases x with
  | error e => cases h
  | ok a => exact ⟨a, rfl, h⟩

/-- Where the memo has a set, this is the answer. -/
theorem grantsOf_of_remembered {s : Store} {e : Entry} {set : GrantSet}
    (h : s.memo.get? e.id = some set) : grantsOf c e s = (.ok (present set), s) := by
  unfold grantsOf
  rw [h]

/-- Where the memo has no set, the lines are read, and what can be read is remembered. -/
theorem grantsOf_of_forgotten {s : Store} {e : Entry} (h : s.memo.get? e.id = none) :
    grantsOf c e s =
      match s.read c e with
      | .error cause => (.error cause, s)
      | .ok set => (.ok (present set), s.remember e.id set) := by
  unfold grantsOf
  generalize s.memo.get? e.id = known at h ⊢
  subst h
  cases s.read c e <;> rfl

/-- The answers that a store gives. -/
def recalled (s : Store) (e : Entry) : GrantAnswer :=
  (grantsOf c e s).1

/-- The second store is the first one after sets of some entries were read. -/
structure Extends (asked : Entry → Prop) (s t : Store) : Prop where
  /-- The directory is the same. -/
  directory : t.directory = s.directory
  /-- The outages are the same. -/
  outages : t.outages = s.outages
  /-- What was remembered still is, and what is new was read from the lines of an asked entry. -/
  memo : ∀ id, t.memo.get? id = s.memo.get? id ∨
    s.memo.get? id = none ∧ ∃ e set, asked e ∧ e.id = id ∧ s.read c e = .ok set ∧
      t.memo.get? id = some set

/-- A store from which nothing was read is itself. -/
theorem extends_refl (asked : Entry → Prop) (s : Store) : Extends c asked s s :=
  ⟨rfl, rfl, fun _ => .inl rfl⟩

variable {c}

/-- Reading sets changes nothing about the lines that are stored. -/
theorem Extends.read_eq {asked : Entry → Prop} {s t : Store} (h : Extends c asked s t) (e : Entry) :
    t.read c e = s.read c e := by
  unfold read values
  rw [h.directory, h.outages]

/-- What was read of some entries was read of more of them. -/
theorem Extends.mono {asked more : Entry → Prop} {s t : Store} (h : Extends c asked s t)
    (hmore : ∀ e, asked e → more e) : Extends c more s t := by
  refine ⟨h.directory, h.outages, fun id => ?_⟩
  rcases h.memo id with hsame | ⟨hnone, e, set, he, hrest⟩
  · exact .inl hsame
  · exact .inr ⟨hnone, e, set, hmore e he, hrest⟩

/-- A store from which sets were read twice is one from which sets were read. -/
theorem Extends.trans {asked : Entry → Prop} {s t u : Store} (hst : Extends c asked s t)
    (htu : Extends c asked t u) : Extends c asked s u := by
  refine ⟨htu.directory.trans hst.directory, htu.outages.trans hst.outages, fun id => ?_⟩
  rcases htu.memo id with hsame | ⟨hnone, e, set, he, hid, hread, hset⟩
  · rw [hsame]
    exact hst.memo id
  · rcases hst.memo id with hfirst | ⟨_, _, _, _, _, _, hsome⟩
    · rw [hst.read_eq] at hread
      exact .inr ⟨hfirst ▸ hnone, e, set, he, hid, hread, hset⟩
    · rw [hnone] at hsome
      cases hsome

/-- To ask for the grants of an entry reads the set of this entry at most. -/
theorem extends_grantsOf (s : Store) (e : Entry) : Extends c (· = e) s (grantsOf c e s).2 := by
  cases hmemo : s.memo.get? e.id with
  | some set =>
    rw [grantsOf_of_remembered c hmemo]
    exact extends_refl c _ s
  | none =>
    rw [grantsOf_of_forgotten c hmemo]
    cases hread : s.read c e with
    | error cause => exact extends_refl c _ s
    | ok set =>
      refine ⟨rfl, rfl, fun id => ?_⟩
      by_cases hid : id = e.id
      · subst hid
        exact .inr ⟨hmemo, e, set, rfl, rfl, hread, by simp [remember, Table.get?_insert]⟩
      · exact .inl (by simp [remember, Table.get?_insert, hid])

/-- An answer stays the same as long as sets are only read. -/
theorem recalled_of_extends {asked : Entry → Prop} {s t : Store} {e : Entry}
    (hs : s.outages = []) (h : Extends c asked (grantsOf c e s).2 t) :
    recalled c t e = (grantsOf c e s).1 := by
  unfold recalled
  cases hmemo : s.memo.get? e.id with
  | some set =>
    rw [grantsOf_of_remembered c hmemo] at h ⊢
    rcases h.memo e.id with hsame | ⟨hnone, _⟩
    · rw [grantsOf_of_remembered c (hsame.trans hmemo)]
    · rw [hmemo] at hnone
      cases hnone
  | none =>
    rw [grantsOf_of_forgotten c hmemo] at h ⊢
    cases hread : s.read c e with
    | error cause =>
      simp only [hread] at h ⊢
      rcases h.memo e.id with hsame | ⟨_, f, set, _, hid, hf, _⟩
      · rw [grantsOf_of_forgotten c (hsame.trans hmemo), h.read_eq, hread]
      · -- Another entry of this id cannot have been read: the lines are the same.
        have hok := isOk_parse c e f (s.directory.valuesOf e.id grantAttribute)
        rw [read_eq c hs] at hread hf
        rw [hread, ← hid, hf] at hok
        cases hok
    | ok set =>
      simp only [hread] at h ⊢
      have hset : (s.remember e.id set).memo.get? e.id = some set := by
        simp [remember, Table.get?_insert]
      rcases h.memo e.id with hsame | ⟨hnone, _⟩
      · rw [grantsOf_of_remembered c (hsame.trans hset)]
      · rw [hset] at hnone
        cases hnone

/-- The result of a computation is the one that its last store would have given, and its last store
remembers what the first one did and what was asked for. -/
theorem run_spec (m : Reading α) (s : Store) (hs : s.outages = []) :
    (m.run (grantsOf c) s).1 = m.eval (recalled c (m.run (grantsOf c) s).2) ∧
      Extends c (· ∈ m.asked (recalled c (m.run (grantsOf c) s).2)) s
        (m.run (grantsOf c) s).2 := by
  induction m generalizing s with
  | done a => exact ⟨rfl, extends_refl c _ s⟩
  | ask e next ih =>
    have hstep := extends_grantsOf (c := c) s e
    obtain ⟨hresult, hrest⟩ := ih (grantsOf c e s).1 (grantsOf c e s).2 (hstep.outages.trans hs)
    have hanswer := recalled_of_extends hs hrest
    simp only [Reading.run, Reading.eval, Reading.asked]
    rw [hanswer]
    refine ⟨hresult, Extends.trans (hstep.mono ?_) (hrest.mono ?_)⟩
    · rintro f rfl
      exact List.mem_cons_self
    · exact fun f hf => List.mem_cons_of_mem _ hf

end DirectoryRights.Store
