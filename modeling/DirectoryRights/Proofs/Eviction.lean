import Mathlib.Data.List.Induction
import DirectoryRights.Proofs.Atomicity
import DirectoryRights.Proofs.Lanes

/-!
# What a bounded memory remembers

A memory of decisions is called to take decisions, to give them and to forget those that a change of
grants may have touched. Whatever calls it gets, it holds no more targets than there is room for.
What it answers goes back to one call: the last one that recorded a decision on this target under
this key, if no change touched the target since then and the record of the target was never lost. A
new decision can be had at once. If it needs more room than there is, the target whose record was
made first is lost, with all its decisions, and nothing else is.

Every call either records one decision or only takes targets away. So the targets stand in the order
in which their records were made, and this is kept by every call.
-/

set_option autoImplicit false

namespace DirectoryRights

namespace Table

variable {α β : Type} [DecidableEq α]

/-- The keys of a table, oldest first. -/
def keys (t : Table α β) : List α :=
  t.rows.map Prod.fst

omit [DecidableEq α] in
/-- A table has as many keys as rows. -/
theorem length_keys (t : Table α β) : t.keys.length = t.size :=
  List.length_map _

/-- Nothing is found exactly under what is no key of a table. -/
theorem get?_eq_none_iff (t : Table α β) (key : α) : t.get? key = none ↔ key ∉ t.keys := by
  unfold get? keys
  rw [Option.map_eq_none_iff, List.find?_eq_none, List.mem_map]
  simp only [decide_eq_true_eq, not_exists, not_and]

/-- A new key goes behind the others, and one that is there stays at its place. -/
theorem map_fst_put (key : α) (value : β) (rows : List (α × β)) :
    (put key value rows).map Prod.fst =
      if key ∈ rows.map Prod.fst then rows.map Prod.fst else rows.map Prod.fst ++ [key] := by
  induction rows with
  | nil => rfl
  | cons row rest ih =>
    unfold put
    by_cases hrow : row.1 = key
    · simp [hrow]
    · rw [if_neg hrow, List.map_cons, ih, List.map_cons]
      by_cases hrest : key ∈ rest.map Prod.fst
      · rw [if_pos hrest, if_pos (List.mem_cons_of_mem _ hrest)]
      · have hkey : key ∉ row.1 :: rest.map Prod.fst := by
          rw [List.mem_cons, not_or]
          exact ⟨Ne.symm hrow, hrest⟩
        rw [if_neg hrest, if_neg hkey, List.cons_append]

/-- A new value for a key takes the old place, and a new key goes to the end. -/
theorem keys_insert (t : Table α β) (key : α) (value : β) :
    (t.insert key value).keys = if key ∈ t.keys then t.keys else t.keys ++ [key] :=
  map_fst_put key value t.rows

/-- Without its oldest row a table lacks the oldest key. -/
theorem get?_tail {t : Table α β} (h : t.keys.Nodup) (key : α) :
    (Table.mk t.rows.tail).get? key =
      if t.keys.head? = some key then none else t.get? key := by
  obtain ⟨_ | ⟨row, rest⟩⟩ := t
  · rfl
  · unfold keys at h ⊢
    rw [List.map_cons, List.nodup_cons] at h
    rw [List.map_cons, List.head?_cons, List.tail_cons]
    by_cases hkey : row.1 = key
    · rw [if_pos (congrArg some hkey), get?_eq_none_iff, ← hkey]
      exact h.1
    · have hhead : ¬ some row.1 = some key := fun heq => hkey (Option.some.inj heq)
      rw [if_neg hhead]
      simp [get?, hkey]

end Table

/-- A call to a memory of decisions. -/
inductive MemoCall where
  /-- It takes a decision. -/
  | put (p : Principal) (target : Entry) (right : Right) (delegate : Bool) (decision : Decision)
  /-- It is asked for a decision. -/
  | get (p : Principal) (target : Entry) (right : Right) (delegate : Bool)
  /-- It is told of a change of the grants on an entry. -/
  | invalidate (target : Entry)

namespace MemoCall

/-- The decision that a call records, with its target and its key. Nothing is recorded on a target
that does not exist, and nothing where decisions are not remembered. -/
def record? : MemoCall → Option (EntryId × DecisionKey × Decision)
  | put p target right delegate decision =>
    if target.isPseudo then none
    else (DecisionMemo.key? p right delegate).map fun key => (target.id, key, decision)
  | get _ _ _ _ | invalidate _ => none

/-- A decision on an entry that exists is recorded under its key. -/
theorem record?_put {p : Principal} {target : Entry} {right : Right} {delegate : Bool}
    {key : DecisionKey} (decision : Decision) (hkey : DecisionMemo.key? p right delegate = some key)
    (hreal : target.isPseudo = false) :
    (put p target right delegate decision).record? = some (target.id, key, decision) := by
  have hnot : ¬ target.isPseudo = true := by rw [hreal]; exact Bool.false_ne_true
  exact (if_neg hnot).trans (congrArg (Option.map _) hkey)

/-- Whether a call leaves what is remembered on a target under a key: it records nothing under the
key itself, and it is not told of a change that the decision may not outlive. -/
def Spares (id : EntryId) (key : DecisionKey) (c : MemoCall) : Prop :=
  (∀ decision, c.record? ≠ some (id, key, decision)) ∧
    ∀ target, c = invalidate target → DecisionMemo.Outlives target id

end MemoCall

namespace DecisionMemo

/-- The memory after a call. -/
def perform (k : DecisionMemo) : MemoCall → DecisionMemo
  | .put p target right delegate decision => k.put p target right delegate decision
  | .get _ _ _ _ => k
  | .invalidate target => k.invalidate target

/-- The memory after some calls. -/
def after (limit : Nat) (calls : List MemoCall) : DecisionMemo :=
  calls.foldl perform (empty limit)

end DecisionMemo

namespace LanedMemo

/-- The memory after a call. -/
def perform (m : LanedMemo) : MemoCall → LanedMemo
  | .put p target right delegate decision => m.put p target right delegate decision
  | .get _ _ _ _ => m
  | .invalidate target => m.invalidate target

/-- The memory after some calls. -/
def after (limit : Nat) (calls : List MemoCall) : LanedMemo :=
  calls.foldl perform (empty limit)

/-- A call keeps the two memories in step. -/
theorem Mirrors.perform {m : LanedMemo} {k : DecisionMemo} (h : m.Mirrors k) (c : MemoCall) :
    (m.perform c).Mirrors (k.perform c) := by
  cases c with
  | put p target right delegate decision => exact h.put p target right delegate decision
  | get p target right delegate => exact h
  | invalidate target => exact h.invalidate target

/-- After any calls the two memories hold the same decisions. -/
theorem mirrors_after (limit : Nat) (calls : List MemoCall) :
    (after limit calls).Mirrors (.after limit calls) := by
  induction calls using List.reverseRecOn with
  | nil => exact mirrors_empty limit
  | append_singleton calls c ih =>
    unfold after DecisionMemo.after
    rw [List.foldl_append, List.foldl_append]
    exact ih.perform c

end LanedMemo

namespace DecisionMemo

/-- The memory holds a record of a target. -/
def Holds (k : DecisionMemo) (id : EntryId) : Prop :=
  id ∈ k.targets.keys

instance (k : DecisionMemo) (id : EntryId) : Decidable (k.Holds id) :=
  inferInstanceAs (Decidable (id ∈ _))

/-- The memory with a decision recorded. -/
def record (k : DecisionMemo) (id : EntryId) (key : DecisionKey) (decision : Decision) :
    DecisionMemo :=
  { k with targets := k.targets.insert id ((k.decisionsOf id).insert key decision) }.trim

/-- The target that is lost when a decision is recorded: none where there is a record already or
there is room for one, and otherwise the one that stands first. -/
def lost? (k : DecisionMemo) (id : EntryId) : Option EntryId :=
  if k.Holds id ∨ k.count < k.capacity then none else k.targets.keys.head?

/-- Each target has one record, and there is room for all of them. -/
structure Bounded (k : DecisionMemo) : Prop where
  /-- No target stands in two rows. -/
  nodup : k.targets.keys.Nodup
  /-- There are not too many targets. -/
  within : k.count ≤ k.capacity

variable {k : DecisionMemo}

/-- There is always room for one target. -/
theorem capacity_pos (k : DecisionMemo) : 0 < k.capacity :=
  Nat.le_max_left 1 k.limit

/-- What a put does is to record its decision, if it records one. -/
theorem put_eq (p : Principal) (target : Entry) (right : Right) (delegate : Bool)
    (decision : Decision) :
    k.put p target right delegate decision =
      match MemoCall.record? (.put p target right delegate decision) with
      | some (id, key, decision) => k.record id key decision
      | none => k := by
  unfold put MemoCall.record?
  by_cases hpseudo : target.isPseudo = true
  · simp only [if_pos hpseudo]
    split <;> rfl
  · simp only [if_neg hpseudo]
    cases hkey : key? p right delegate <;> rfl

/-- A call records a decision, or it leaves some targets with all that is remembered on them and
takes the others away. -/
theorem perform_cases (k : DecisionMemo) (c : MemoCall) :
    (∃ id key decision, c.record? = some (id, key, decision) ∧
        k.perform c = k.record id key decision ∧
        ∀ id' key', c.Spares id' key' ↔ ¬ (id' = id ∧ key' = key)) ∨
      c.record? = none ∧ ∃ left : EntryId → Bool,
        k.perform c = { k with targets := ⟨k.targets.rows.filter fun row => left row.1⟩ } ∧
        ∀ id' key', c.Spares id' key' ↔ left id' = true := by
  have hidle : c.record? = none → k.perform c = k → (∀ target, c ≠ .invalidate target) →
      ∃ left : EntryId → Bool,
        k.perform c = { k with targets := ⟨k.targets.rows.filter fun row => left row.1⟩ } ∧
        ∀ id' key', c.Spares id' key' ↔ left id' = true := by
    intro hnone hsame hno
    refine ⟨fun _ => true, ?_, fun id' key' => iff_of_true ⟨?_, ?_⟩ rfl⟩
    · rw [List.filter_true]
      exact hsame
    · rw [hnone]
      exact fun _ => nofun
    · exact fun target heq => absurd heq (hno target)
  cases c with
  | put p target right delegate decision =>
    have hput := k.put_eq p target right delegate decision
    cases hrecord : MemoCall.record? (.put p target right delegate decision) with
    | none =>
      rw [hrecord] at hput
      exact .inr ⟨rfl, hidle hrecord hput fun _ => nofun⟩
    | some record =>
      obtain ⟨id, key, recorded⟩ := record
      rw [hrecord] at hput
      refine .inl ⟨id, key, recorded, rfl, hput, fun id' key' => ?_⟩
      unfold MemoCall.Spares
      rw [hrecord]
      constructor
      · rintro ⟨hother, -⟩ ⟨rfl, rfl⟩
        exact hother recorded rfl
      · intro hother
        refine ⟨fun _ heq => hother ?_, fun _ => nofun⟩
        cases heq
        exact ⟨rfl, rfl⟩
  | get p target right delegate => exact .inr ⟨rfl, hidle rfl rfl fun _ => nofun⟩
  | invalidate target =>
    refine .inr ⟨rfl, fun id => Outlives target id, ?_, fun id' key' => ?_⟩
    · exact k.invalidate_eq target
    · unfold MemoCall.Spares
      rw [decide_eq_true_iff]
      constructor
      · exact fun h => h.2 target rfl
      · intro h
        refine ⟨fun _ => nofun, fun other heq => ?_⟩
        cases heq
        exact h

/-! ## One call -/

/-- Recording a decision makes room by letting at most the first target go. -/
theorem Bounded.rows_record (h : k.Bounded) (id : EntryId) (key : DecisionKey)
    (decision : Decision) :
    (k.record id key decision).targets.rows =
      let kept := (k.targets.insert id ((k.decisionsOf id).insert key decision)).rows
      if k.Holds id ∨ k.count < k.capacity then kept else kept.tail := by
  have hlength : (k.targets.insert id ((k.decisionsOf id).insert key decision)).size =
      if k.Holds id then k.count else k.count + 1 := by
    rw [← Table.length_keys, Table.keys_insert]
    unfold count
    rw [← Table.length_keys]
    by_cases hholds : k.Holds id
    · exact (congrArg List.length (if_pos hholds)).trans (if_pos hholds).symm
    · rw [if_neg hholds]
      exact (congrArg List.length (if_neg hholds)).trans List.length_append
  have hwithin := h.within
  show List.drop (Table.size _ - k.capacity) _ = _
  rw [hlength]
  by_cases hholds : k.Holds id
  · have hnone : k.count - k.capacity = 0 := Nat.sub_eq_zero_of_le hwithin
    simp only [hholds, if_true, true_or, hnone, List.drop_zero]
  · simp only [hholds, if_false, false_or]
    by_cases hroom : k.count < k.capacity
    · have hnone : k.count + 1 - k.capacity = 0 := Nat.sub_eq_zero_of_le hroom
      rw [if_pos hroom, hnone, List.drop_zero]
    · have hone : k.count + 1 - k.capacity = 1 := by omega
      rw [if_neg hroom, hone, List.drop_one]

/-- The targets after a record: those of before if it has a record already, and otherwise it comes
last, and the oldest one goes where there was no room. -/
theorem Bounded.keys_record (h : k.Bounded) (id : EntryId) (key : DecisionKey)
    (decision : Decision) :
    (k.record id key decision).targets.keys =
      if k.Holds id then k.targets.keys
      else (if k.count < k.capacity then k.targets.keys else k.targets.keys.tail) ++ [id] := by
  have hkeys := k.targets.keys_insert id ((k.decisionsOf id).insert key decision)
  unfold Table.keys at hkeys ⊢
  rw [h.rows_record]
  by_cases hholds : k.Holds id
  · rw [if_pos (.inl hholds), if_pos hholds, hkeys]
    exact if_pos hholds
  · have hout : ¬ id ∈ k.targets.rows.map Prod.fst := hholds
    rw [if_neg hout] at hkeys
    simp only [hholds, if_false, false_or]
    by_cases hroom : k.count < k.capacity
    · rw [if_pos hroom, if_pos hroom, hkeys]
    · -- A memory without room holds some target.
      have hsome : k.targets.rows.map Prod.fst ≠ [] := by
        intro hnil
        have hzero : k.count = 0 := by
          unfold count Table.size
          rw [List.map_eq_nil_iff.mp hnil, List.length_nil]
        exact hroom (hzero ▸ k.capacity_pos)
      rw [if_neg hroom, if_neg hroom, List.map_tail, hkeys, List.tail_append_of_ne_nil hsome]

/-- The lost target is not the one that a decision is recorded on. -/
theorem lost?_ne (id : EntryId) : k.lost? id ≠ some id := by
  unfold lost?
  split
  · exact nofun
  · intro hhead
    exact absurd (.inl (List.mem_of_head? hhead)) ‹¬ (k.Holds id ∨ k.count < k.capacity)›

/-- After a decision is recorded its own target has it, the lost one has nothing, and the others
have what they had. -/
theorem Bounded.get?_record (h : k.Bounded) (id : EntryId) (key : DecisionKey)
    (decision : Decision) (other : EntryId) :
    (k.record id key decision).targets.get? other =
      if k.lost? id = some other then none
      else if other = id then some ((k.decisionsOf id).insert key decision)
      else k.targets.get? other := by
  have hinsert := Table.get?_insert k.targets id ((k.decisionsOf id).insert key decision) other
  have hrows := h.rows_record id key decision
  have hnew : (k.record id key decision).targets =
      ⟨(k.record id key decision).targets.rows⟩ := rfl
  rw [hnew, hrows]
  unfold lost?
  by_cases hkept : k.Holds id ∨ k.count < k.capacity
  · simp only [if_pos hkept]
    rw [if_neg (Option.some_ne_none other).symm]
    exact hinsert
  · have hout : id ∉ k.targets.keys := fun hin => hkept (.inl hin)
    have hkeys := k.targets.keys_insert id ((k.decisionsOf id).insert key decision)
    rw [if_neg hout] at hkeys
    have hnodup : (k.targets.insert id ((k.decisionsOf id).insert key decision)).keys.Nodup := by
      rw [hkeys]
      exact List.nodup_append.mpr ⟨h.nodup, List.pairwise_singleton _ id,
        fun a ha b hb heq => hout (List.mem_singleton.mp hb ▸ heq ▸ ha)⟩
    -- A memory without room holds some target, which stands first also after the new one.
    have hhead : (k.targets.keys ++ [id]).head? = k.targets.keys.head? := by
      have hfull : ¬ k.count < k.capacity := fun hroom => hkept (.inr hroom)
      have hlength : 0 < k.targets.keys.length := by
        rw [Table.length_keys]
        exact Nat.lt_of_lt_of_le k.capacity_pos (Nat.le_of_not_lt hfull)
      obtain ⟨first, rest, hcons⟩ := List.exists_cons_of_length_pos hlength
      rw [hcons]
      rfl
    simp only [if_neg hkept]
    rw [Table.get?_tail hnodup, hkeys, hhead, hinsert]

/-- Rows that are left can be found as before, and those that are taken out are not found. -/
theorem get?_left (left : EntryId → Bool) (rows : List (EntryId × Table DecisionKey Decision))
    (id : EntryId) :
    (Table.mk (rows.filter fun row => left row.1)).get? id =
      if left id = true then (Table.mk rows).get? id else none := by
  unfold Table.get?
  rw [List.find?_filter]
  by_cases hleft : left id = true
  · rw [if_pos hleft]
    congr 2
    funext row
    by_cases hid : row.1 = id
    · simp [hid, hleft]
    · simp [hid]
  · have hnone : rows.find? (fun row => decide (left row.1 = true ∧ decide (row.1 = id) = true)) =
        none := by
      rw [List.find?_eq_none]
      intro row _ hrow
      simp only [decide_eq_true_eq] at hrow
      exact hleft (hrow.2 ▸ hrow.1)
    rw [if_neg hleft, hnone]
    rfl

/-- The memory without decisions is within its bounds. -/
theorem bounded_empty (limit : Nat) : (empty limit).Bounded where
  nodup := List.nodup_nil
  within := Nat.zero_le _

/-- The targets after a call are some of those before it, in their order, and after them the one
that a decision is recorded on, if there was no record of it. -/
theorem Bounded.keys_perform (h : k.Bounded) (c : MemoCall) :
    ∃ kept, kept.Sublist k.targets.keys ∧
      ((k.perform c).targets.keys = kept ∨
        ∃ id, ¬ k.Holds id ∧ (k.perform c).targets.keys = kept ++ [id]) := by
  rcases k.perform_cases c with ⟨id, key, decision, -, hperform, -⟩ | ⟨-, left, hperform, -⟩
  · rw [hperform, h.keys_record]
    by_cases hholds : k.Holds id
    · rw [if_pos hholds]
      exact ⟨_, List.Sublist.refl _, .inl rfl⟩
    · rw [if_neg hholds]
      refine ⟨_, ?_, .inr ⟨id, hholds, rfl⟩⟩
      split
      · exact List.Sublist.refl _
      · exact List.tail_sublist _
  · rw [hperform]
    exact ⟨_, List.filter_sublist.map _, .inl rfl⟩

/-- No call takes a memory out of its bounds. -/
theorem Bounded.perform (h : k.Bounded) (c : MemoCall) : (k.perform c).Bounded := by
  constructor
  · obtain ⟨kept, hkept, hkeys | ⟨id, hnew, hkeys⟩⟩ := h.keys_perform c
    · rw [hkeys]
      exact h.nodup.sublist hkept
    · rw [hkeys]
      exact List.nodup_append.mpr ⟨h.nodup.sublist hkept, List.pairwise_singleton _ id,
        fun a ha b hb heq => hnew (List.mem_singleton.mp hb ▸ heq ▸ hkept.subset ha)⟩
  · have hwithin := h.within
    rcases k.perform_cases c with ⟨id, key, decision, -, hperform, -⟩ | ⟨-, left, hperform, -⟩
    · have hkeys := h.keys_record id key decision
      rw [hperform]
      show Table.size _ ≤ k.capacity
      rw [← Table.length_keys, hkeys]
      unfold count at hwithin ⊢
      rw [← Table.length_keys] at hwithin ⊢
      split
      · exact hwithin
      · rw [List.length_append, List.length_singleton]
        split
        · exact ‹k.targets.keys.length < k.capacity›
        · rw [List.length_tail]
          have hpos := k.capacity_pos
          omega
    · rw [hperform]
      exact Nat.le_trans (List.length_filter_le _ _) hwithin

/-! ## All calls -/

section Calls

variable (limit : Nat) (calls : List MemoCall)

/-- The last call meets the memory that all before have left. -/
theorem after_concat (c : MemoCall) :
    after limit (calls ++ [c]) = (after limit calls).perform c := by
  unfold after
  rw [List.foldl_append]
  rfl

/-- No call changes the limit. -/
theorem limit_perform (k : DecisionMemo) (c : MemoCall) : (k.perform c).limit = k.limit := by
  rcases k.perform_cases c with ⟨_, _, _, -, hperform, -⟩ | ⟨-, _, hperform, -⟩
  · rw [hperform]
    rfl
  · rw [hperform]

/-- There is room for as many targets as the limit says, and at least for one. -/
theorem capacity_after : (after limit calls).capacity = max limit 1 := by
  have hlimit : (after limit calls).limit = limit := by
    induction calls using List.reverseRecOn with
    | nil => rfl
    | append_singleton calls c ih => rw [after_concat, limit_perform, ih]
  unfold capacity
  rw [hlimit, Nat.max_comm]

/-- Any calls leave a memory within its bounds. -/
theorem bounded_after : (after limit calls).Bounded := by
  induction calls using List.reverseRecOn with
  | nil => exact bounded_empty limit
  | append_singleton calls c ih =>
    rw [after_concat]
    exact ih.perform c

/-- The record of a target was made by the call at a place: there was none before it, and there has
been one ever since. -/
structure MadeBy (id : EntryId) (n : Nat) : Prop where
  /-- The call is one of the calls. -/
  lt : n < calls.length
  /-- Before it there was no record. -/
  before : ¬ (after limit (calls.take n)).Holds id
  /-- After it there always was one. -/
  since : ∀ m, n < m → m ≤ calls.length → (after limit (calls.take m)).Holds id

/-- The record of a target was made before that of every other target that has one. -/
def Oldest (id : EntryId) : Prop :=
  ∃ n, MadeBy limit calls id n ∧ ∀ other m, MadeBy limit calls other m → other ≠ id → n < m

/-- The call at a place records a decision on a target under a key, and every later call spares
it. -/
structure LastRecord (id : EntryId) (key : DecisionKey) (decision : Decision) (n : Nat) : Prop where
  /-- The call records the decision. -/
  recorded : calls[n]?.bind MemoCall.record? = some (id, key, decision)
  /-- No later call records another one, or is told of a change that it may not outlive. -/
  spared : ∀ c ∈ calls.drop (n + 1), c.Spares id key

variable {limit calls}

/-- A record that was made by a call and has stayed is there. -/
theorem MadeBy.holds {id : EntryId} {n : Nat} (h : MadeBy limit calls id n) :
    (after limit calls).Holds id := by
  have hlast := h.since calls.length h.lt (Nat.le_refl _)
  rwa [List.take_length] at hlast

/-- After one more call a record is the one that was there before, or it was made by this call. -/
theorem madeBy_concat {c : MemoCall} {id : EntryId} {n : Nat} :
    MadeBy limit (calls ++ [c]) id n ↔ (after limit (calls ++ [c])).Holds id ∧
      (MadeBy limit calls id n ∨ ¬ (after limit calls).Holds id ∧ n = calls.length) := by
  have hbefore : ∀ m, m ≤ calls.length → (calls ++ [c]).take m = calls.take m := fun m hm =>
    List.take_append_of_le_length hm
  have hlength : (calls ++ [c]).length = calls.length + 1 := List.length_append
  constructor
  · intro h
    refine ⟨h.holds, ?_⟩
    have hlt := h.lt
    rw [hlength] at hlt
    rcases Nat.lt_or_eq_of_le (Nat.le_of_lt_succ hlt) with hold | rfl
    · refine .inl ⟨hold, ?_, fun m hnm hm => ?_⟩
      · rw [← hbefore n (Nat.le_of_lt hold)]
        exact h.before
      · rw [← hbefore m hm]
        exact h.since m hnm (hlength ▸ Nat.le_succ_of_le hm)
    · have hnone := h.before
      rw [hbefore _ (Nat.le_refl _), List.take_length] at hnone
      exact .inr ⟨hnone, rfl⟩
  · rintro ⟨hholds, hold | ⟨hnone, rfl⟩⟩
    · refine ⟨hlength ▸ Nat.lt_succ_of_lt hold.lt, ?_, fun m hnm hm => ?_⟩
      · rw [hbefore n (Nat.le_of_lt hold.lt)]
        exact hold.before
      · rw [hlength] at hm
        rcases Nat.lt_or_eq_of_le hm with hm | rfl
        · rw [hbefore m (Nat.le_of_lt_succ hm)]
          exact hold.since m hnm (Nat.le_of_lt_succ hm)
        · rw [← hlength, List.take_length]
          exact hholds
    · refine ⟨hlength ▸ Nat.lt_succ_self _, ?_, fun m hnm hm => ?_⟩
      · rw [hbefore _ (Nat.le_refl _), List.take_length]
        exact hnone
      · rw [hlength] at hm
        obtain rfl : m = calls.length + 1 := Nat.le_antisymm hm hnm
        rw [← hlength, List.take_length]
        exact hholds

/-- Every record was made by some call. -/
theorem holds_iff_madeBy {id : EntryId} :
    (after limit calls).Holds id ↔ ∃ n, MadeBy limit calls id n := by
  refine ⟨?_, fun ⟨n, h⟩ => h.holds⟩
  induction calls using List.reverseRecOn with
  | nil => exact fun h => absurd h List.not_mem_nil
  | append_singleton calls c ih =>
    intro hholds
    by_cases hold : (after limit calls).Holds id
    · obtain ⟨n, hn⟩ := ih hold
      exact ⟨n, madeBy_concat.mpr ⟨hholds, .inl hn⟩⟩
    · exact ⟨calls.length, madeBy_concat.mpr ⟨hholds, .inr ⟨hold, rfl⟩⟩⟩

/-- The targets stand in the order in which their records were made. -/
theorem pairwise_madeBy (limit : Nat) (calls : List MemoCall) :
    (after limit calls).targets.keys.Pairwise fun older newer =>
      ∀ n m, MadeBy limit calls older n → MadeBy limit calls newer m → n < m := by
  induction calls using List.reverseRecOn with
  | nil => exact .nil
  | append_singleton calls c ih =>
    -- A record that was there before the call was made by the same call as before.
    have hsame : ∀ {id n}, (after limit calls).Holds id → MadeBy limit (calls ++ [c]) id n →
        MadeBy limit calls id n := by
      intro id n hholds h
      exact (madeBy_concat.mp h).2.resolve_right fun hnew => hnew.1 hholds
    obtain ⟨kept, hkept, hkeys⟩ := (bounded_after limit calls).keys_perform c
    have hpairs : kept.Pairwise fun older newer =>
        ∀ n m, MadeBy limit (calls ++ [c]) older n → MadeBy limit (calls ++ [c]) newer m →
          n < m := by
      refine (ih.sublist hkept).imp_of_mem fun holder hnewer hpair n m hn hm => ?_
      exact hpair n m (hsame (hkept.subset holder) hn) (hsame (hkept.subset hnewer) hm)
    rw [after_concat]
    rcases hkeys with hkeys | ⟨id, hnew, hkeys⟩
    · rw [hkeys]
      exact hpairs
    · rw [hkeys, List.pairwise_append]
      refine ⟨hpairs, List.pairwise_singleton _ _, fun older holder newest hnewest n m hn hm => ?_⟩
      obtain rfl := List.mem_singleton.mp hnewest
      obtain ⟨-, hold | ⟨-, rfl⟩⟩ := madeBy_concat.mp hm
      · exact absurd hold.holds hnew
      · exact (hsame (hkept.subset holder) hn).lt

/-- The target that stands first has the oldest record. -/
theorem oldest_of_head {id : EntryId} (h : (after limit calls).targets.keys.head? = some id) :
    Oldest limit calls id := by
  obtain ⟨n, hn⟩ := holds_iff_madeBy.mp (List.mem_of_head? h : (after limit calls).Holds id)
  refine ⟨n, hn, fun other m hm hother => ?_⟩
  have hpairs := pairwise_madeBy limit calls
  have hmem : other ∈ (after limit calls).targets.keys := hm.holds
  cases hkeys : (after limit calls).targets.keys with
  | nil =>
    rw [hkeys] at hmem
    cases hmem
  | cons first rest =>
    rw [hkeys] at h hpairs hmem
    obtain rfl : first = id := Option.some.inj h
    have hrest : other ∈ rest := (List.mem_cons.mp hmem).resolve_left hother
    exact (List.pairwise_cons.mp hpairs).1 other hrest n m hn hm

/-- The call that made the last record is one of the calls. -/
theorem LastRecord.lt {id : EntryId} {key : DecisionKey} {decision : Decision} {n : Nat}
    (h : LastRecord calls id key decision n) : n < calls.length := by
  obtain ⟨call, hcall, -⟩ := Option.bind_eq_some_iff.mp h.recorded
  exact (List.getElem?_eq_some_iff.mp hcall).1

/-- After one more call the last record is the one that it makes, or the one of before if it is
spared. -/
theorem lastRecord_concat {c : MemoCall} {id : EntryId} {key : DecisionKey} {decision : Decision}
    {n : Nat} :
    LastRecord (calls ++ [c]) id key decision n ↔
      n = calls.length ∧ c.record? = some (id, key, decision) ∨
        LastRecord calls id key decision n ∧ c.Spares id key := by
  constructor
  · rintro ⟨hrecorded, hspared⟩
    rcases Nat.lt_trichotomy n calls.length with hlt | rfl | hgt
    · rw [List.getElem?_append_left hlt] at hrecorded
      rw [List.drop_append_of_le_length hlt] at hspared
      refine .inr ⟨⟨hrecorded, fun other hother => ?_⟩, ?_⟩
      · exact hspared other (List.mem_append_left _ hother)
      · exact hspared c (List.mem_append_right _ List.mem_cons_self)
    · rw [List.getElem?_concat_length] at hrecorded
      exact .inl ⟨rfl, hrecorded⟩
    · have hbeyond : (calls ++ [c]).length ≤ n := by
        rw [List.length_append]
        exact hgt
      rw [List.getElem?_eq_none hbeyond] at hrecorded
      cases hrecorded
  · rintro (⟨rfl, hrecord⟩ | ⟨hold, hspare⟩)
    · refine ⟨?_, fun other hother => ?_⟩
      · rw [List.getElem?_concat_length]
        exact hrecord
      · have hnone : (calls ++ [c]).drop (calls.length + 1) = [] :=
          List.drop_eq_nil_of_le (Nat.le_of_eq List.length_append)
        rw [hnone] at hother
        cases hother
    · refine ⟨?_, fun other hother => ?_⟩
      · rw [List.getElem?_append_left hold.lt]
        exact hold.recorded
      · rw [List.drop_append_of_le_length hold.lt] at hother
        rcases List.mem_append.mp hother with hbefore | hlast
        · exact hold.spared other hbefore
        · obtain rfl := List.mem_singleton.mp hlast
          exact hspare

/-- Where a decision is remembered, the memory holds a record of its target. -/
theorem holds_of_remembered {id : EntryId} {key : DecisionKey} {decision : Decision}
    (h : (k.decisionsOf id).get? key = some decision) : k.Holds id := by
  by_contra hout
  unfold decisionsOf at h
  rw [(k.targets.get?_eq_none_iff id).mpr hout] at h
  cases h

/-- What is remembered after a call was recorded by it, or was remembered before and is spared by
it, on a target that is still held. -/
theorem Bounded.remembered_perform (h : k.Bounded) (c : MemoCall) (id : EntryId)
    (key : DecisionKey) (decision : Decision) :
    ((k.perform c).decisionsOf id).get? key = some decision ↔
      c.record? = some (id, key, decision) ∨
        (k.perform c).Holds id ∧ (k.decisionsOf id).get? key = some decision ∧
          c.Spares id key := by
  -- A target that the call takes away is not held, and nothing is remembered on it.
  have hgone : (k.perform c).targets.get? id = none → (c.record? ≠ some (id, key, decision)) →
      (((k.perform c).decisionsOf id).get? key = some decision ↔
        c.record? = some (id, key, decision) ∨
          (k.perform c).Holds id ∧ (k.decisionsOf id).get? key = some decision ∧
            c.Spares id key) := by
    intro hnone hother
    have hout : ¬ (k.perform c).Holds id := (Table.get?_eq_none_iff _ _).mp hnone
    exact iff_of_false (fun hget => hout (holds_of_remembered hget))
      (not_or.mpr ⟨hother, fun hheld => hout hheld.1⟩)
  -- On a target that it leaves alone the same is remembered as before.
  have hsame : (k.perform c).targets.get? id = k.targets.get? id →
      (c.record? ≠ some (id, key, decision)) → c.Spares id key →
      (((k.perform c).decisionsOf id).get? key = some decision ↔
        c.record? = some (id, key, decision) ∨
          (k.perform c).Holds id ∧ (k.decisionsOf id).get? key = some decision ∧
            c.Spares id key) := by
    intro hget hother hspares
    have hdecisions : (k.perform c).decisionsOf id = k.decisionsOf id :=
      congrArg (Option.getD · Table.empty) hget
    constructor
    · intro hfound
      exact .inr ⟨holds_of_remembered hfound, hdecisions ▸ hfound, hspares⟩
    · rintro (hrecord | ⟨-, hfound, -⟩)
      · exact absurd hrecord hother
      · rw [hdecisions]
        exact hfound
  rcases k.perform_cases c with ⟨id', key', recorded, hrecord, hperform, hspares⟩ |
    ⟨hrecord, left, hperform, hspares⟩
  · have hget := h.get?_record id' key' recorded id
    rw [← hperform] at hget
    by_cases hid : id = id'
    · subst hid
      rw [if_neg (k.lost?_ne id), if_pos rfl] at hget
      have hdecisions : (k.perform c).decisionsOf id = (k.decisionsOf id).insert key' recorded :=
        congrArg (Option.getD · Table.empty) hget
      have hheld : (k.perform c).Holds id := by
        by_contra hout
        rw [(Table.get?_eq_none_iff _ _).mpr hout] at hget
        cases hget
      rw [hdecisions, Table.get?_insert, hrecord, hspares]
      by_cases hkey : key = key'
      · simp [hkey]
      · simp [hkey, Ne.symm hkey, hheld]
    · have hother : c.record? ≠ some (id, key, decision) := by
        rw [hrecord]
        rintro ⟨⟩
        exact hid rfl
      rw [if_neg hid] at hget
      by_cases hlost : k.lost? id' = some id
      · rw [if_pos hlost] at hget
        exact hgone hget hother
      · rw [if_neg hlost] at hget
        exact hsame hget hother ((hspares id key).mpr fun hown => hid hown.1)
  · have hget := get?_left left k.targets.rows id
    have hnone : c.record? ≠ some (id, key, decision) := by
      rw [hrecord]
      exact (Option.some_ne_none _).symm
    by_cases hleft : left id = true
    · rw [if_pos hleft] at hget
      exact hsame (hperform ▸ hget) hnone ((hspares id key).mpr hleft)
    · rw [if_neg hleft] at hget
      exact hgone (hperform ▸ hget) hnone

/-- A decision is remembered exactly if a call recorded it, every later call spared it and the
record of its target has been there since. -/
theorem remembered_iff (limit : Nat) (calls : List MemoCall) (id : EntryId) (key : DecisionKey)
    (decision : Decision) :
    ((after limit calls).decisionsOf id).get? key = some decision ↔
      ∃ n, LastRecord calls id key decision n ∧ ∃ made ≤ n, MadeBy limit calls id made := by
  induction calls using List.reverseRecOn with
  | nil =>
    refine iff_of_false nofun ?_
    rintro ⟨n, h, -⟩
    cases h.recorded
  | append_singleton calls c ih =>
    have hstep := (bounded_after limit calls).remembered_perform c id key decision
    rw [← after_concat] at hstep
    have hrecorded := fun hrecord => holds_of_remembered (hstep.mpr (.inl hrecord))
    rw [hstep, ih]
    constructor
    · rintro (hrecord | ⟨hheld, ⟨n, hlast, made, hmade, hby⟩, hspares⟩)
      · obtain ⟨made, hby⟩ := holds_iff_madeBy.mp (hrecorded hrecord)
        have hmade : made ≤ calls.length := by
          have hlt := hby.lt
          rw [List.length_append] at hlt
          exact Nat.le_of_lt_succ hlt
        exact ⟨calls.length, lastRecord_concat.mpr (.inl ⟨rfl, hrecord⟩), made, hmade, hby⟩
      · exact ⟨n, lastRecord_concat.mpr (.inr ⟨hlast, hspares⟩), made, hmade,
          madeBy_concat.mpr ⟨hheld, .inl hby⟩⟩
    · rintro ⟨n, hlast, made, hmade, hby⟩
      rcases lastRecord_concat.mp hlast with ⟨-, hrecord⟩ | ⟨hold, hspares⟩
      · exact .inl hrecord
      · obtain ⟨hheld, hbefore | ⟨-, rfl⟩⟩ := madeBy_concat.mp hby
        · exact .inr ⟨hheld, ⟨n, hold, made, hmade, hbefore⟩, hspares⟩
        · exact absurd hold.lt (Nat.not_lt_of_le hmade)

/-- The next record takes the place of the oldest one, unless its target has a record already or
there is room for one more. -/
theorem lost?_after (limit : Nat) (calls : List MemoCall) (id : EntryId) :
    let k := after limit calls
    (k.lost? id = none ↔ k.Holds id ∨ k.count < max limit 1) ∧
      ∀ oldest, k.lost? id = some oldest → oldest ≠ id ∧ Oldest limit calls oldest := by
  intro k
  have hcapacity : k.capacity = max limit 1 := capacity_after limit calls
  rw [← hcapacity]
  by_cases hkept : k.Holds id ∨ k.count < k.capacity
  · have hnone : k.lost? id = none := if_pos hkept
    refine ⟨iff_of_true hnone hkept, fun oldest hlost => ?_⟩
    rw [hnone] at hlost
    cases hlost
  · have hhead : k.lost? id = k.targets.keys.head? := if_neg hkept
    refine ⟨iff_of_false (fun hnone => hkept (.inr ?_)) hkept, fun oldest hlost => ⟨?_, ?_⟩⟩
    · rw [hhead, List.head?_eq_none_iff] at hnone
      have hzero : k.count = 0 := by
        unfold count
        rw [← Table.length_keys, hnone, List.length_nil]
      exact hzero ▸ k.capacity_pos
    · rintro rfl
      exact k.lost?_ne oldest hlost
    · exact oldest_of_head (hhead ▸ hlost)

/-- A memory in lanes holds no more targets than there is room for, and at least one. It answers
with a decision exactly if this was the last one recorded under the key, no change that the decision
may not outlive came after it, and the record of the target has been there since. A decision put on
a target that exists can be had at once. If there is neither a record of its target nor room for
one, the oldest record goes with all its decisions, and on the other targets nothing changes. -/
theorem after_remembers (limit : Nat) (calls : List MemoCall) :
    let m := LanedMemo.after limit calls
    let k := after limit calls
    m.Mirrors k ∧ m.count ≤ max limit 1 ∧
      (∀ p target right delegate decision,
        m.get? p target right delegate = some decision ↔
          ∃ key n, key? p right delegate = some key ∧
            LastRecord calls target.id key decision n ∧
            ∃ made ≤ n, MadeBy limit calls target.id made) ∧
      (∀ p target right delegate decision, p.id?.isSome → right.label.slot.isSome →
        target.isPseudo = false →
        (m.put p target right delegate decision).get? p target right delegate = some decision) ∧
      ∀ c id key decision, c.record? = some (id, key, decision) →
        (m.perform c).Mirrors (k.perform c) ∧
        ∃ lost : Option EntryId, (lost = none ↔ k.Holds id ∨ k.count < max limit 1) ∧
          (∀ oldest, lost = some oldest → oldest ≠ id ∧ Oldest limit calls oldest) ∧
          ∀ other, (k.perform c).targets.get? other =
            if lost = some other then none
            else if other = id then some ((k.decisionsOf id).insert key decision)
            else k.targets.get? other := by
  intro m k
  have hmirrors : m.Mirrors k := LanedMemo.mirrors_after limit calls
  have hbounded : k.Bounded := bounded_after limit calls
  refine ⟨hmirrors, ?_, ?_, ?_, ?_⟩
  · rw [hmirrors.count, ← capacity_after limit calls]
    exact hbounded.within
  · intro p target right delegate decision
    rw [hmirrors.get?]
    unfold DecisionMemo.get?
    rw [Option.bind_eq_some_iff]
    constructor
    · rintro ⟨key, hkey, hget⟩
      obtain ⟨n, hlast, hmade⟩ := (remembered_iff limit calls target.id key decision).mp hget
      exact ⟨key, n, hkey, hlast, hmade⟩
    · rintro ⟨key, n, hkey, hlast, hmade⟩
      exact ⟨key, hkey, (remembered_iff limit calls target.id key decision).mpr ⟨n, hlast, hmade⟩⟩
  · intro p target right delegate decision hholder hslot hreal
    obtain ⟨holder, hholder⟩ := Option.isSome_iff_exists.mp hholder
    obtain ⟨slot, hslot⟩ := Option.isSome_iff_exists.mp hslot
    have hkey : key? p right delegate = some ⟨holder, slot, delegate⟩ := by
      unfold key?
      rw [hholder, hslot]
      rfl
    have hrecord := MemoCall.record?_put decision hkey hreal
    rw [(hmirrors.put p target right delegate decision).get?]
    unfold DecisionMemo.get?
    rw [hkey, Option.bind_some]
    exact (hbounded.remembered_perform (.put p target right delegate decision) _ _ _).mpr
      (.inl hrecord)
  · intro c id key decision hrecord
    refine ⟨hmirrors.perform c, k.lost? id, (lost?_after limit calls id).1,
      (lost?_after limit calls id).2, fun other => ?_⟩
    rcases k.perform_cases c with ⟨id', key', recorded, hrecord', hperform, -⟩ | ⟨hnone, -⟩
    · rw [hrecord'] at hrecord
      cases hrecord
      rw [hperform]
      exact hbounded.get?_record id key decision other
    · rw [hnone] at hrecord
      cases hrecord

end Calls

end DecisionMemo

end DirectoryRights
