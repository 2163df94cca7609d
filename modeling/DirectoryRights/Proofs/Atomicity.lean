import DirectoryRights.Proofs.Writes
import DirectoryRights.Proofs.Sample

/-!
# Changes happen as a whole or not at all

A request to change grants may be refused at many points: a grant in it may not be made, an admin
right may not end, the end may conflict with the policy, the stored lines may not be readable, or
the directory may not take the write. Whatever stops it, and also where it would change nothing, all
that is stored or remembered stays as it was. A request that changes something writes one attribute
of one entry, once, and forgets what was remembered because of the old value.
-/

set_option autoImplicit false

namespace DirectoryRights

/-- Accounts are the targets of the types account and calendar resource. -/
theorem Entry.isAccount_iff {e : Entry} :
    e.isAccount = true ↔ e.targetType = .account ∨ e.targetType = .calResource := by
  unfold isAccount targetType
  cases e.kind <;> simp [EntryKind.rank?, EntryKind.targetType]

namespace DecisionMemo

/-- Whether decisions on a target outlive a change of the grants on an entry: only the grants on
accounts and calendar resources are inherited by nobody. -/
def Outlives (target : Entry) (id : EntryId) : Prop :=
  (target.targetType = .account ∨ target.targetType = .calResource) ∧ id ≠ target.id

instance (target : Entry) (id : EntryId) : Decidable (Outlives target id) :=
  inferInstanceAs (Decidable (_ ∧ _))

/-- A change leaves the rows of the targets whose decisions outlive it, in their order. -/
theorem invalidate_eq (k : DecisionMemo) (target : Entry) :
    k.invalidate target =
      { k with targets := ⟨k.targets.rows.filter fun row => Outlives target row.1⟩ } := by
  unfold invalidate
  by_cases haccount : target.isAccount = true
  · rw [if_pos haccount]
    have hkind := Entry.isAccount_iff.mp haccount
    unfold Table.erase Outlives
    simp only [hkind, true_and]
  · rw [if_neg haccount]
    have hkind := mt Entry.isAccount_iff.mpr haccount
    unfold Table.empty Outlives
    simp [hkind]

end DecisionMemo

/-- A request to change the grants on an entry. -/
inductive Amendment where
  /-- Grants are added. -/
  | grant (gs : List Grant)
  /-- Grants are added that end. -/
  | grantUntil (gs : List Grant) (expiry : Option String) (now : Int)
  /-- Grants are taken away. -/
  | revoke (gs : List Grant)

/-- The second state is the first one after lines were written as the grants of an entry. -/
structure AccessState.Rewritten (target : Entry) (lines : List String) (s t : AccessState) :
    Prop where
  /-- The lines are stored on the entry, or the attribute is gone if there are none; every other
  attribute is as it was. -/
  attributes : ∀ key, t.store.directory.attributes.get? key =
    if key = (target.id, Store.grantAttribute) then (if lines = [] then none else some lines)
    else s.store.directory.attributes.get? key
  /-- One more write is counted. -/
  writes : t.store.directory.writes = s.store.directory.writes + 1
  /-- Nothing else of the directory is touched. -/
  rest : Directory.SameEntries s.store.directory t.store.directory
  /-- What is out of service stays so. -/
  outages : t.store.outages = s.store.outages
  /-- The set of the entry is forgotten, and no other. -/
  memo : ∀ id, t.store.memo.get? id = if id = target.id then none else s.store.memo.get? id
  /-- The decisions that may rest on the old grants are forgotten, and no others. -/
  decisions : t.cache = s.cache.map fun k =>
    { k with targets := ⟨k.targets.rows.filter fun row => DecisionMemo.Outlives target row.1⟩ }

/-- What is left of a state after lines were written as the grants of an entry, and the remembered
decisions were told of it. -/
theorem AccessState.rewritten_written (target : Entry) (lines : List String) (st : AccessState) :
    Rewritten target lines st
      { store := st.store.written target lines, cache := st.cache.map (·.invalidate target) } where
  attributes := st.store.directory.get?_writeAttribute target.id Store.grantAttribute lines
  writes := congrArg (· + 1) (by cases lines <;> rfl)
  rest := (st.store.directory.sameEntries_writeAttribute target.id Store.grantAttribute
    lines).trans rfl
  outages := rfl
  memo := Table.get?_erase st.store.memo target.id
  decisions := congrArg (st.cache.map ·) (funext fun k => k.invalidate_eq target)

namespace Amendment

/-- The set after the change, and the grants that changed. -/
def on (set : GrantSet) : Amendment → GrantSet × List Grant
  | grant gs | grantUntil gs _ _ => set.grant gs
  | revoke gs => set.revoke gs

variable (k : AccessControl) (target : Entry)

/-- The grants that changed, or why the request is refused, and the state that it leaves behind. -/
def make (st : AccessState) : Amendment → Except Error (List Grant) × AccessState
  | grant gs => k.grant target gs st
  | grantUntil gs expiry now =>
    let (outcome, after) := k.grantUntil target gs expiry now st
    (outcome.map Prod.fst, after)
  | revoke gs => k.revoke target gs st

/-- Nothing is wrong with the request itself. -/
def Permitted : Amendment → Prop
  | grant gs => ∀ g ∈ gs, Store.objection? target g = none
  | grantUntil gs expiry now =>
    (∀ g ∈ gs, g.right.isUserRight = true) ∧
      (∃ ending, Expiry.decide expiry k.maxLifetime now = .ok ending) ∧
      ∀ g ∈ gs, Store.objection? target g = none
  | revoke _ => True

/-- What is wrong with the request itself. -/
def refusal? : Amendment → Option Error
  | grant gs => gs.findSome? (Store.objection? target)
  | grantUntil gs expiry now =>
    match gs.find? (!·.right.isUserRight) with
    | some g => some (.adminRightExpiry g.right.name)
    | none =>
      match Expiry.decide expiry k.maxLifetime now with
      | .error e => some e
      | .ok _ => gs.findSome? (Store.objection? target)
  | revoke _ => none

variable {k target}

/-- A request is not refused for itself exactly if it is permitted. -/
theorem refusal?_eq_none {a : Amendment} : a.refusal? k target = none ↔ a.Permitted k target := by
  cases a with
  | grant gs => exact List.findSome?_eq_none_iff
  | revoke gs => exact iff_of_true rfl trivial
  | grantUntil gs expiry now =>
    simp only [refusal?, Permitted]
    cases hadmin : gs.find? (!·.right.isUserRight) with
    | some g =>
      have hmem := List.mem_of_find?_eq_some hadmin
      have hright := List.find?_some hadmin
      refine iff_of_false (by simp) fun h => ?_
      rw [h.1 g hmem] at hright
      cases hright
    | none =>
      have husers : ∀ g ∈ gs, g.right.isUserRight = true := by
        simpa using List.find?_eq_none.mp hadmin
      cases hends : Expiry.decide expiry k.maxLifetime now with
      | error e => simp
      | ok ending =>
        exact List.findSome?_eq_none_iff.trans
          ⟨fun hgood => ⟨husers, ⟨ending, rfl⟩, hgood⟩, fun h => h.2.2⟩

/-- Without the end that is reported with them, grants that end are grants. -/
theorem apply_withEnd (st : AccessState) (ending : Int)
    (outcome : Except Error (List Grant × Store)) :
    ((AccessControl.apply st target Prod.fst
        (outcome.map fun (granted, s) => ((granted, ending), s))).1.map Prod.fst,
      (AccessControl.apply st target Prod.fst
        (outcome.map fun (granted, s) => ((granted, ending), s))).2) =
      AccessControl.apply st target id outcome := by
  cases outcome <;> rfl

/-- Every request reads the stored set and commits what it makes of it, unless something is wrong
with the request itself. -/
theorem make_eq (a : Amendment) (st : AccessState) :
    a.make k target st = AccessControl.apply st target id
      (match a.refusal? k target with
        | some e => .error e
        | none => (st.store.read k.catalog target).bind fun set =>
            st.store.commit target (a.on set)) := by
  cases a with
  | grant gs => rfl
  | revoke gs => rfl
  | grantUntil gs expiry now =>
    simp only [make, refusal?, AccessControl.grantUntil, Store.grantUntil]
    cases gs.find? (!·.right.isUserRight) with
    | some g => rfl
    | none =>
      cases Expiry.decide expiry k.maxLifetime now with
      | error e => rfl
      | ok ending =>
        simp only [Except.bind, Store.grant]
        cases gs.findSome? (Store.objection? target) with
        | some objection => rfl
        | none => exact apply_withEnd st ending _

/-- A commit that fails or has nothing to commit leaves the state as it was. -/
theorem apply_commit (target : Entry) (st : AccessState) (after : GrantSet)
    (reported : List Grant) :
    match AccessControl.apply st target id (st.store.commit target (after, reported)) with
    | (.error _, t) => t = st
    | (.ok [], t) => reported = [] ∧ t = st
    | (.ok (g :: rest), t) => g :: rest = reported ∧ st.Rewritten target after.lines t := by
  cases hcommit : st.store.commit target (after, reported) with
  | error e => rfl
  | ok outcome =>
    obtain ⟨changed, store⟩ := outcome
    obtain ⟨rfl, ⟨rfl, rfl⟩ | ⟨hne, -, rfl⟩⟩ := Store.commit_eq_ok.mp hcommit
    · exact ⟨rfl, rfl⟩
    · obtain ⟨g, rest, rfl⟩ := List.exists_cons_of_ne_nil hne
      exact ⟨rfl, st.rewritten_written target after.lines⟩

/-- Whether a change goes through is not a matter of what is forgotten after it. -/
theorem isOk_apply {α : Type} (st : AccessState) (target : Entry) (changed : α → List Grant)
    (outcome : Except Error (α × Store)) :
    (AccessControl.apply st target changed outcome).1.isOk = outcome.isOk := by
  cases outcome <;> rfl

/-- A request goes through exactly if nothing is wrong with it, the stored set can be read, and the
directory takes the write if there is one to make. A refused request leaves everything as it was. So
does one that reports no change, and then there is nothing that it would change in the stored set. A
request that changes grants stores the set that it makes of the stored one in place of it, and what
was remembered because of the old set is forgotten. -/
theorem make_atomic (k : AccessControl) (target : Entry) (a : Amendment) (st : AccessState) :
    ((a.make k target st).1.isOk = true ↔ a.Permitted k target ∧
      ∃ set, st.store.read k.catalog target = .ok set ∧
        ((a.on set).2 = [] ∨ st.store.CanWrite target)) ∧
    match a.make k target st with
    | (.error _, after) => after = st
    | (.ok [], after) => a.Permitted k target ∧
        (∃ set, st.store.read k.catalog target = .ok set ∧ (a.on set).2 = []) ∧ after = st
    | (.ok (g :: rest), after) => a.Permitted k target ∧
        ∃ set, st.store.read k.catalog target = .ok set ∧ g :: rest = (a.on set).2 ∧
          st.Rewritten target (a.on set).1.lines after := by
  rw [make_eq, isOk_apply, ← refusal?_eq_none]
  cases a.refusal? k target with
  | some e => exact ⟨iff_of_false Bool.false_ne_true fun h => (nomatch h.1), rfl⟩
  | none =>
    cases hread : st.store.read k.catalog target with
    | error e => exact ⟨iff_of_false Bool.false_ne_true fun ⟨_, _, h, _⟩ => (nomatch h), rfl⟩
    | ok set =>
      constructor
      · refine Store.isOk_commit.trans ⟨fun h => ⟨rfl, set, rfl, h⟩, ?_⟩
        rintro ⟨-, other, hsame, h⟩
        cases hsame
        exact h
      · have hstate := apply_commit target st (a.on set).1 (a.on set).2
        simp only [Except.bind]
        generalize AccessControl.apply st target id (st.store.commit target (a.on set)) =
          result at hstate ⊢
        rcases result with ⟨_ | _ | _, after⟩
        · exact hstate
        · exact ⟨trivial, ⟨set, rfl, hstate.1⟩, hstate.2⟩
        · exact ⟨trivial, set, rfl, hstate⟩

/-- Taking away the only grant on Ann's account takes the attribute away. -/
example :
    ((revoke [Sample.grantTo "22222222-2222-2222-2222-222222222222"]).make Sample.control Sample.ann
      (.start Sample.directory none)).2.store.directory.attributes = .empty := by
  decide +kernel

end Amendment

end DirectoryRights
