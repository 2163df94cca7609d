import Mathlib.Logic.Function.Iterate
import DirectoryRights.Proofs.Recall
import DirectoryRights.AccessControl

/-!
# A check and a change at the same time

A check and a change of grants that run at the same time take turns. Every access to one of the
memories or to the stored lines is one step, and between two steps of one party the other may do any
number of its own. The check looks for a remembered decision; for each entry it looks into the memo,
reads the lines if it has to, and stores the set that it read; at the end it records its decision.
The change reads the lines, writes them, and drops decisions. A party that is left alone does what
the check or the change does in one go.
-/

set_option autoImplicit false

namespace DirectoryRights

/-! ## The check -/

/-- Where a check stands. -/
inductive CheckPhase where
  /-- It looks for a remembered decision. -/
  | probing
  /-- It has answers to some questions, and this is left. -/
  | searching (rest : Reading (Except Error Evaluation))
  /-- The memo has no set of the entry, and its lines are to be read. -/
  | loading (e : Entry) (next : GrantAnswer → Reading (Except Error Evaluation))
  /-- The set of the entry is read and is to be stored. -/
  | storing (e : Entry) (set : GrantSet) (next : GrantAnswer → Reading (Except Error Evaluation))
  /-- It is over. -/
  | finished (outcome : Except Error Evaluation)

/-- The state with the decision of a search, if the search was to be remembered. -/
def AccessState.recorded (st : AccessState) (r : Request) (outcome : Except Error Evaluation) :
    AccessState :=
  { st with
    cache := if r.wantsVia then st.cache else st.cache.map (AccessControl.record r outcome) }

/-- The state with a set in the memo. -/
def AccessState.storing (st : AccessState) (e : Entry) (set : GrantSet) : AccessState :=
  { st with store := st.store.remember e.id set }

namespace CheckPhase

/-- The search has begun and is not over. -/
def underWay : CheckPhase → Bool
  | searching _ | loading _ _ | storing _ _ _ => true
  | probing | finished _ => false

/-- The answer of a check that is over. -/
def outcome? : CheckPhase → Option (Except Error Evaluation)
  | finished outcome => some outcome
  | _ => none

variable (k : AccessControl) (r : Request)

/-- One step of a check. -/
def advance : CheckPhase × AccessState → CheckPhase × AccessState
  | (probing, st) =>
    match r.settled with
    | .error e => (finished (.error e), st)
    | .ok (some decision) => (finished (.ok (.bare decision)), st)
    | .ok none =>
      match AccessControl.cached? r st with
      | some decision => (finished (.ok (.bare decision)), st)
      | none => (searching (r.reading st.store.view), st)
  | (searching (.done outcome), st) => (finished outcome, st.recorded r outcome)
  | (searching (.ask e next), st) =>
    match st.store.memo.get? e.id with
    | some set => (searching (next (.ok (Store.present set))), st)
    | none => (loading e next, st)
  | (loading e next, st) =>
    match st.store.read k.catalog e with
    | .error cause => (searching (next (.error cause)), st)
    | .ok set => (storing e set next, st)
  | (storing e set next, st) => (searching (next (.ok (Store.present set))), st.storing e set)
  | (finished outcome, st) => (finished outcome, st)

/-- What is left of a search, in one go. -/
def search (rest : Reading (Except Error Evaluation)) (st : AccessState) :
    Except Error Evaluation × AccessState :=
  let (outcome, store) := rest.run (Store.grantsOf k.catalog) st.store
  (outcome, { st with store }.recorded r outcome)

/-- What is left of a check, in one go. -/
def complete : CheckPhase × AccessState → Except Error Evaluation × AccessState
  | (probing, st) => k.evaluate r st
  | (searching rest, st) => search k r rest st
  | (loading e next, st) =>
    match st.store.read k.catalog e with
    | .error cause => search k r (next (.error cause)) st
    | .ok set => search k r (next (.ok (Store.present set))) (st.storing e set)
  | (storing e set next, st) => search k r (next (.ok (Store.present set))) (st.storing e set)
  | (finished outcome, st) => (outcome, st)

variable {k r}

/-- What the memo has is the answer, and the search goes on with it. -/
theorem search_of_remembered {e : Entry} {next : GrantAnswer → Reading (Except Error Evaluation)}
    {st : AccessState} {set : GrantSet} (h : st.store.memo.get? e.id = some set) :
    search k r (.ask e next) st = search k r (next (.ok (Store.present set))) st := by
  simp only [search, Reading.run, Store.grantsOf_of_remembered k.catalog h]

/-- What the memo does not have is loaded first. -/
theorem search_of_forgotten {e : Entry} {next : GrantAnswer → Reading (Except Error Evaluation)}
    {st : AccessState} (h : st.store.memo.get? e.id = none) :
    search k r (.ask e next) st = complete k r (loading e next, st) := by
  simp only [search, complete, Reading.run, Store.grantsOf_of_forgotten k.catalog h]
  cases st.store.read k.catalog e <;> rfl

/-- What the first step of a check can do: it is over, or the search begins. -/
theorem advance_probing (st : AccessState) :
    (∃ outcome, k.evaluate r st = (outcome, st) ∧
        advance k r (probing, st) = (finished outcome, st)) ∨
      k.evaluate r st = search k r (r.reading st.store.view) st ∧
        advance k r (probing, st) = (searching (r.reading st.store.view), st) := by
  simp only [advance, AccessControl.evaluate]
  cases r.settled with
  | error e => exact .inl ⟨_, rfl, rfl⟩
  | ok verdict =>
    cases verdict with
    | some decision => exact .inl ⟨_, rfl, rfl⟩
    | none =>
      cases AccessControl.cached? r st with
      | some decision => exact .inl ⟨_, rfl, rfl⟩
      | none => exact .inr ⟨rfl, rfl⟩

/-- What a search does with a question: the memo answers, or the lines are to be read. -/
theorem advance_asking (e : Entry) (next : GrantAnswer → Reading (Except Error Evaluation))
    (st : AccessState) :
    (∃ set, st.store.memo.get? e.id = some set ∧ advance k r (searching (.ask e next), st) =
        (searching (next (.ok (Store.present set))), st)) ∨
      st.store.memo.get? e.id = none ∧
        advance k r (searching (.ask e next), st) = (loading e next, st) := by
  simp only [advance]
  cases st.store.memo.get? e.id with
  | some set => exact .inl ⟨set, rfl, rfl⟩
  | none => exact .inr ⟨rfl, rfl⟩

/-- What reading the lines of an entry can do: it fails, or gives the set that is to be stored. -/
theorem advance_loading (e : Entry) (next : GrantAnswer → Reading (Except Error Evaluation))
    (st : AccessState) :
    (∃ cause, st.store.read k.catalog e = .error cause ∧
        advance k r (loading e next, st) = (searching (next (.error cause)), st)) ∨
      ∃ set, st.store.read k.catalog e = .ok set ∧
        advance k r (loading e next, st) = (storing e set next, st) := by
  simp only [advance]
  cases st.store.read k.catalog e with
  | error cause => exact .inl ⟨cause, rfl, rfl⟩
  | ok set => exact .inr ⟨set, rfl, rfl⟩

/-- A step leaves to be done what makes the same whole. -/
theorem complete_advance (p : CheckPhase × AccessState) :
    complete k r (advance k r p) = complete k r p := by
  obtain ⟨phase, st⟩ := p
  cases phase with
  | probing =>
    rcases advance_probing (k := k) (r := r) st with ⟨outcome, heval, hstep⟩ | ⟨heval, hstep⟩
    · rw [hstep]
      exact heval.symm
    · rw [hstep]
      exact heval.symm
  | searching rest =>
    cases rest with
    | done outcome => rfl
    | ask e next =>
      rcases advance_asking (k := k) (r := r) e next st with ⟨set, hmemo, hstep⟩ | ⟨hmemo, hstep⟩
      · rw [hstep]
        exact (search_of_remembered hmemo).symm
      · rw [hstep]
        exact (search_of_forgotten hmemo).symm
  | loading e next =>
    simp only [advance, complete]
    cases st.store.read k.catalog e <;> rfl
  | storing e set next => rfl
  | finished outcome => rfl

/-- A check that is left alone comes to its end. -/
def Ends (k : AccessControl) (r : Request) (p : CheckPhase × AccessState) : Prop :=
  ∃ n, (advance k r)^[n] p = (finished (complete k r p).1, (complete k r p).2)

/-- A check that comes to its end after one more step comes to its end. -/
theorem ends_of_advance {p : CheckPhase × AccessState} (h : Ends k r (advance k r p)) :
    Ends k r p := by
  obtain ⟨n, hn⟩ := h
  rw [complete_advance] at hn
  exact ⟨n + 1, hn⟩

/-- A check that is over has come to its end. -/
theorem ends_finished (outcome : Except Error Evaluation) (st : AccessState) :
    Ends k r (finished outcome, st) := ⟨0, rfl⟩

/-- A search comes to its end, however much of it is left. -/
theorem ends_searching (rest : Reading (Except Error Evaluation)) (st : AccessState) :
    Ends k r (searching rest, st) := by
  induction rest generalizing st with
  | done outcome => exact ends_of_advance (ends_finished _ _)
  | ask e next ih =>
    apply ends_of_advance
    rcases advance_asking (k := k) (r := r) e next st with ⟨set, -, hstep⟩ | ⟨-, hstep⟩
    · rw [hstep]
      exact ih _ st
    · rw [hstep]
      apply ends_of_advance
      rcases advance_loading (k := k) (r := r) e next st with ⟨cause, -, hstep⟩ | ⟨set, -, hstep⟩
      · rw [hstep]
        exact ih _ st
      · rw [hstep]
        exact ends_of_advance (ih _ _)

/-- A check that is left alone ends with the answer and the memories of a check in one go. -/
theorem exists_iterate_advance (st : AccessState) :
    ∃ n, (advance k r)^[n] (probing, st) =
      (finished (k.evaluate r st).1, (k.evaluate r st).2) := by
  have hends : Ends k r (probing, st) := by
    apply ends_of_advance
    rcases advance_probing (k := k) (r := r) st with ⟨outcome, -, hstep⟩ | ⟨-, hstep⟩
    · rw [hstep]
      exact ends_finished _ _
    · rw [hstep]
      exact ends_searching _ _
  exact hends

/-- Checks write neither lines nor outages. -/
theorem advance_directory (p : CheckPhase × AccessState) :
    (advance k r p).2.store.directory = p.2.store.directory ∧
      (advance k r p).2.store.outages = p.2.store.outages := by
  obtain ⟨phase, st⟩ := p
  cases phase with
  | probing =>
    rcases advance_probing (k := k) (r := r) st with ⟨outcome, -, hstep⟩ | ⟨-, hstep⟩ <;>
      rw [hstep] <;> exact ⟨rfl, rfl⟩
  | searching rest =>
    cases rest with
    | done outcome => exact ⟨rfl, rfl⟩
    | ask e next =>
      rcases advance_asking (k := k) (r := r) e next st with ⟨set, -, hstep⟩ | ⟨-, hstep⟩ <;>
        rw [hstep] <;> exact ⟨rfl, rfl⟩
  | loading e next =>
    rcases advance_loading (k := k) (r := r) e next st with ⟨cause, -, hstep⟩ | ⟨set, -, hstep⟩ <;>
      rw [hstep] <;> exact ⟨rfl, rfl⟩
  | storing e set next => exact ⟨rfl, rfl⟩
  | finished outcome => exact ⟨rfl, rfl⟩

/-- What a search finds does not depend on the remembered decisions. -/
theorem complete_of_store {phase : CheckPhase} (h : phase.underWay = true) {st st' : AccessState}
    (hstore : st'.store = st.store) :
    (complete k r (phase, st')).1 = (complete k r (phase, st)).1 := by
  obtain ⟨store, cache⟩ := st
  obtain ⟨store', cache'⟩ := st'
  obtain rfl : store' = store := hstore
  cases phase with
  | probing => cases h
  | searching rest => rfl
  | loading e next =>
    simp only [complete]
    cases store'.read k.catalog e <;> rfl
  | storing e set next => rfl
  | finished outcome => cases h

end CheckPhase

/-! ## The change -/

/-- A change of the grants on an entry. -/
inductive Change where
  /-- Grants are added. -/
  | grant (target : Entry) (gs : List Grant)
  /-- Grants are taken away. -/
  | revoke (target : Entry) (gs : List Grant)

namespace Change

/-- The entry whose grants change. -/
def target : Change → Entry
  | grant target _ | revoke target _ => target

/-- What is wrong with a change. -/
def objection? : Change → Option Error
  | grant target gs => gs.findSome? (Store.objection? target)
  | revoke _ _ => none

/-- The set after a change, and the grants that changed. -/
def on (set : GrantSet) : Change → GrantSet × List Grant
  | grant _ gs => set.grant gs
  | revoke _ gs => set.revoke gs

/-- A change in one go. -/
def make (k : AccessControl) (st : AccessState) : Change → Except Error (List Grant) × AccessState
  | grant target gs => k.grant target gs st
  | revoke target gs => k.revoke target gs st

end Change

/-- Where a change stands. -/
inductive ChangePhase where
  /-- The stored grants are to be read. -/
  | loading
  /-- The changed set is to be written. -/
  | writing (set : GrantSet) (changed : List Grant)
  /-- The set is written, and decisions are to be dropped. -/
  | invalidating (changed : List Grant)
  /-- It is over. -/
  | finished (outcome : Except Error (List Grant))

namespace ChangePhase

/-- The lines are written and the decisions that rest on the old ones are not yet dropped. -/
def isInvalidating : ChangePhase → Bool
  | invalidating _ => true
  | _ => false

/-- The lines are not written yet and may be. -/
def isBeforeWrite : ChangePhase → Bool
  | loading | writing _ _ => true
  | _ => false

/-- The result of a change that is over. -/
def outcome? : ChangePhase → Option (Except Error (List Grant))
  | finished outcome => some outcome
  | _ => none

variable (k : AccessControl) (change : Change)

/-- One step of a change. -/
def advance : ChangePhase × AccessState → ChangePhase × AccessState
  | (loading, st) =>
    match change.objection? with
    | some objection => (finished (.error objection), st)
    | none =>
      match st.store.read k.catalog change.target with
      | .error cause => (finished (.error cause), st)
      | .ok set =>
        match change.on set with
        | (_, []) => (finished (.ok []), st)
        | (after, changed) => (writing after changed, st)
  | (writing set changed, st) =>
    match st.store.write change.target set with
    | .error cause => (finished (.error cause), st)
    | .ok store => (invalidating changed, { st with store })
  | (invalidating changed, st) =>
    (finished (.ok changed), { st with cache := st.cache.map (·.invalidate change.target) })
  | (finished outcome, st) => (finished outcome, st)

variable {k change}

/-- What the first step of a change can do. It writes nothing. -/
theorem advance_loading (st : AccessState) :
    ∃ after, advance k change (loading, st) = (after, st) ∧ after.isInvalidating = false := by
  simp only [advance]
  cases change.objection? with
  | some objection => exact ⟨_, rfl, rfl⟩
  | none =>
    simp only
    cases st.store.read k.catalog change.target with
    | error cause => exact ⟨_, rfl, rfl⟩
    | ok set =>
      simp only
      cases change.on set with
      | mk after changed => cases changed <;> exact ⟨_, rfl, rfl⟩

/-- What the second step of a change can do: it is refused, or the lines are written. -/
theorem advance_writing (set : GrantSet) (changed : List Grant) (st : AccessState) :
    (∃ cause, advance k change (writing set changed, st) = (finished (.error cause), st)) ∨
      ∃ t, st.store.write change.target set = .ok t ∧
        advance k change (writing set changed, st) = (invalidating changed, { st with store := t })
      := by
  simp only [advance]
  cases st.store.write change.target set with
  | error cause => exact .inl ⟨cause, rfl⟩
  | ok t => exact .inr ⟨t, rfl, rfl⟩

/-- A change in one go reads the stored set and commits what it makes of it. -/
theorem make_eq (st : AccessState) :
    change.make k st =
      AccessControl.apply st change.target id (match change.objection? with
        | some objection => .error objection
        | none => (st.store.read k.catalog change.target).bind fun set =>
            st.store.commit change.target (change.on set)) := by
  cases change with
  | grant target gs =>
    unfold Change.make AccessControl.grant Store.grant
    rfl
  | revoke target gs => rfl

/-- A change that is left alone ends, after three steps at the latest, as a change in one go. -/
theorem iterate_advance (st : AccessState) :
    (advance k change)^[3] (loading, st) =
      (finished (change.make k st).1, (change.make k st).2) := by
  rw [make_eq]
  simp only [Function.iterate_succ_apply, Function.iterate_zero_apply, advance]
  cases change.objection? with
  | some objection => rfl
  | none =>
    simp only
    cases st.store.read k.catalog change.target with
    | error cause => rfl
    | ok set =>
      simp only [Except.bind]
      cases change.on set with
      | mk after changed =>
        cases changed with
        | nil => rfl
        | cons g rest =>
          simp only [Store.commit]
          cases st.store.write change.target after <;> rfl

end ChangePhase

/-! ## Both -/

/-- A check and a change on their way. -/
structure Scene where
  /-- Where the check stands. -/
  check : CheckPhase
  /-- Where the change stands. -/
  change : ChangePhase
  /-- What both read and write. -/
  state : AccessState
  /-- Where the check stood when the lines were written, if they were. -/
  met : Option CheckPhase

/-- Whose turn it is. -/
inductive Party where
  /-- The check takes a step. -/
  | check
  /-- The change takes a step. -/
  | change

namespace Scene

/-- Neither has begun. -/
def start (st : AccessState) : Scene :=
  { check := .probing, change := .loading, state := st, met := none }

variable (k : AccessControl) (r : Request) (change : Change)

/-- One of the two takes a step. -/
def step (sc : Scene) : Party → Scene
  | .check =>
    let (check, state) := CheckPhase.advance k r (sc.check, sc.state)
    { sc with check, state }
  | .change =>
    let (after, state) := ChangePhase.advance k change (sc.change, sc.state)
    { sc with
      change := after
      state
      met := if after.isInvalidating then some sc.check else sc.met }

variable {k r change}

/-- A step of the change leaves the check where it stands. -/
theorem step_change_eq {sc : Scene} {after : ChangePhase} {state : AccessState}
    (h : ChangePhase.advance k change (sc.change, sc.state) = (after, state)) :
    sc.step k r change .change =
      { sc with
        change := after
        state
        met := if after.isInvalidating then some sc.check else sc.met } := by
  unfold step
  rw [h]

variable (k r change)

/-- The two take turns. -/
def run (schedule : List Party) (sc : Scene) : Scene :=
  schedule.foldl (step k r change) sc

end Scene

end DirectoryRights
