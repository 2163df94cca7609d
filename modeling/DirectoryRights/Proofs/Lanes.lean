import Mathlib.Data.List.Forall2
import DirectoryRights.DecisionMemo

/-!
# Decisions in lanes

The decisions of one principal on one target can be kept in two lanes, one for each purpose of a
check, where a decision stands at the place of the slot of its right. A lane grows when a decision
needs a place beyond its end, and the places in between stay empty. A memory that keeps decisions
so, and that lets its oldest targets go one by one as long as there are too many of them, answers
like the memory that keeps them by keys. In particular no empty place is taken for a decision.
-/

set_option autoImplicit false

namespace DirectoryRights

/-- The decisions of one principal on one target, each at the place of the slot of its right. -/
structure Lanes where
  /-- The decisions on rights to be used. -/
  use : List (Option Decision)
  /-- The decisions on rights to be passed on. -/
  passOn : List (Option Decision)

namespace Lanes

/-- The lanes without decisions. -/
def empty : Lanes := ⟨[], []⟩

/-- The lane of a purpose. -/
def lane (l : Lanes) (delegate : Bool) : List (Option Decision) :=
  if delegate then l.passOn else l.use

/-- The decision at a place; beyond the end of a lane there is none. -/
def get? (l : Lanes) (slot : Nat) (delegate : Bool) : Option Decision :=
  (l.lane delegate)[slot]?.join

/-- A lane with a decision at a place, up to which it grows where it is too short. -/
def place (lane : List (Option Decision)) (slot : Nat) (decision : Decision) :
    List (Option Decision) :=
  (lane ++ List.replicate (slot + 1 - lane.length) none).set slot (some decision)

/-- The lanes with a decision at a place. -/
def set (l : Lanes) (slot : Nat) (delegate : Bool) (decision : Decision) : Lanes :=
  if delegate then { l with passOn := place l.passOn slot decision }
  else { l with use := place l.use slot decision }

/-- The places by which a lane grows are empty, like those beyond its end. -/
theorem getElem?_grown (lane : List (Option Decision)) (more i : Nat) :
    (lane ++ List.replicate more none)[i]?.join = lane[i]?.join := by
  by_cases hin : i < lane.length
  · rw [List.getElem?_append_left hin]
  · have hout : lane.length ≤ i := Nat.le_of_not_lt hin
    rw [List.getElem?_append_right hout, List.getElem?_eq_none hout, List.getElem?_replicate]
    split <;> rfl

/-- A decision is found at the place where it was put, and at all others what was there. -/
theorem getElem?_place (lane : List (Option Decision)) (slot i : Nat) (decision : Decision) :
    (place lane slot decision)[i]?.join = if i = slot then some decision else lane[i]?.join := by
  unfold place
  by_cases hslot : i = slot
  · have hroom : slot < (lane ++ List.replicate (slot + 1 - lane.length) none).length := by
      rw [List.length_append, List.length_replicate]
      omega
    rw [if_pos hslot, hslot, List.getElem?_set_self hroom]
    rfl
  · rw [if_neg hslot, List.getElem?_set_ne (Ne.symm hslot), getElem?_grown]

/-- Where no decision was put none is found. -/
theorem get?_empty (slot : Nat) (delegate : Bool) : empty.get? slot delegate = none := by
  cases delegate <;> rfl

/-- A decision is found under the slot and the purpose under which it was put, and what was there
under all others. -/
theorem get?_set (l : Lanes) (slot i : Nat) (delegate purpose : Bool) (decision : Decision) :
    (l.set slot delegate decision).get? i purpose =
      if i = slot ∧ purpose = delegate then some decision else l.get? i purpose := by
  cases delegate <;> cases purpose <;> simp [set, get?, lane, getElem?_place]

end Lanes

/-- Decisions by target and principal, in lanes. -/
structure LanedMemo where
  /-- The number of targets it holds at most. -/
  room : Nat
  /-- The lanes of each principal for each target. -/
  targets : Table EntryId (Table EntryId Lanes)

namespace LanedMemo

/-- The memory without decisions. -/
def empty (limit : Nat) : LanedMemo :=
  { room := max limit 1, targets := .empty }

/-- The number of targets with decisions. -/
def count (m : LanedMemo) : Nat :=
  m.targets.size

/-- The lanes of the principals for a target. -/
def holdersOf (m : LanedMemo) (target : EntryId) : Table EntryId Lanes :=
  (m.targets.get? target).getD .empty

/-- The remembered decision. -/
def get? (m : LanedMemo) (p : Principal) (target : Entry) (right : Right) (delegate : Bool) :
    Option Decision :=
  (DecisionMemo.key? p right delegate).bind fun key =>
    ((m.holdersOf target.id).get? key.holder).bind (·.get? key.slot key.delegate)

/-- The rows that are left when the oldest one is let go as long as there is no room for all. -/
def evict {β : Type} (room : Nat) : List β → List β
  | [] => []
  | row :: rest => if room < (row :: rest).length then evict room rest else row :: rest

/-- The memory with one more decision. -/
def put (m : LanedMemo) (p : Principal) (target : Entry) (right : Right) (delegate : Bool)
    (decision : Decision) : LanedMemo :=
  match DecisionMemo.key? p right delegate with
  | none => m
  | some key =>
    if target.isPseudo then m
    else
      let holders := m.holdersOf target.id
      let lanes := (holders.get? key.holder).getD .empty
      let holders := holders.insert key.holder (lanes.set key.slot key.delegate decision)
      { m with targets := ⟨evict m.room (m.targets.insert target.id holders).rows⟩ }

/-- The memory after a change of the grants on an entry. -/
def invalidate (m : LanedMemo) (target : Entry) : LanedMemo :=
  if target.isAccount then { m with targets := m.targets.erase target.id }
  else { m with targets := .empty }

/-- Letting rows go one by one leaves the newest ones, as many as there is room for. -/
theorem evict_eq_drop {β : Type} (room : Nat) (rows : List β) :
    evict room rows = rows.drop (rows.length - room) := by
  induction rows with
  | nil => exact List.drop_nil.symm
  | cons row rest ih =>
    unfold evict
    rw [List.length_cons]
    by_cases hfull : room < rest.length + 1
    · have hmore : rest.length + 1 - room = rest.length - room + 1 := by omega
      rw [if_pos hfull, ih, hmore, List.drop_succ_cons]
    · have hfits : rest.length + 1 - room = 0 := by omega
      rw [if_neg hfull, hfits, List.drop_zero]

/-- The lanes of the principals for a target show the decisions on it by their keys. -/
def Shows (holders : Table EntryId Lanes) (decisions : Table DecisionKey Decision) : Prop :=
  ∀ key : DecisionKey,
    (holders.get? key.holder).bind (·.get? key.slot key.delegate) = decisions.get? key

/-- Without decisions there is nothing to show. -/
theorem shows_empty : Shows .empty .empty := fun _ => rfl

variable {holders : Table EntryId Lanes} {decisions : Table DecisionKey Decision}

/-- Lanes for a principal who had none are without decisions. -/
theorem Shows.get?_getD (h : Shows holders decisions) (key : DecisionKey) :
    ((holders.get? key.holder).getD .empty).get? key.slot key.delegate = decisions.get? key := by
  rw [← h key]
  cases holders.get? key.holder with
  | none => exact Lanes.get?_empty _ _
  | some lanes => rfl

/-- A decision that is put under its key on both sides is shown by the lanes. -/
theorem Shows.insert (h : Shows holders decisions) (key : DecisionKey) (decision : Decision) :
    Shows (holders.insert key.holder
        (((holders.get? key.holder).getD .empty).set key.slot key.delegate decision))
      (decisions.insert key decision) := by
  intro other
  rw [Table.get?_insert, Table.get?_insert]
  by_cases hholder : other.holder = key.holder
  · rw [if_pos hholder, Option.bind_some, Lanes.get?_set, ← hholder, h.get?_getD]
    have hkey : other = key ↔ other.slot = key.slot ∧ other.delegate = key.delegate := by
      cases other
      cases key
      simp_all
    simp only [hkey]
  · have hkey : other ≠ key := fun heq => hholder (congrArg DecisionKey.holder heq)
    rw [if_neg hholder, if_neg hkey]
    exact h other

/-- The rows of one target in the two memories. -/
def SameRow (held : EntryId × Table EntryId Lanes) (row : EntryId × Table DecisionKey Decision) :
    Prop :=
  held.1 = row.1 ∧ Shows held.2 row.2

/-- A memory in lanes and one by keys hold the same decisions on the same targets in one order. -/
structure Mirrors (m : LanedMemo) (k : DecisionMemo) : Prop where
  /-- There is room for as many targets. -/
  room : m.room = k.capacity
  /-- The targets are the same, and so are the decisions on each of them. -/
  rows : List.Forall₂ SameRow m.targets.rows k.targets.rows

variable {m : LanedMemo} {k : DecisionMemo}

/-- Both memories begin without decisions. -/
theorem mirrors_empty (limit : Nat) : (empty limit).Mirrors (.empty limit) where
  room := Nat.max_comm limit 1
  rows := .nil

/-- Rows that correspond show the decisions on every target, also on one without a row. -/
theorem shows_getD_of_rows {held : List (EntryId × Table EntryId Lanes)}
    {rows : List (EntryId × Table DecisionKey Decision)} (h : List.Forall₂ SameRow held rows)
    (id : EntryId) :
    Shows (((Table.mk held).get? id).getD .empty) (((Table.mk rows).get? id).getD .empty) := by
  unfold Table.get?
  induction h with
  | nil => exact shows_empty
  | @cons first row held rows hrow _ ih =>
    rw [List.find?_cons, List.find?_cons, hrow.1]
    by_cases hid : row.1 = id
    · simp only [hid, decide_true]
      exact hrow.2
    · simp only [hid, decide_false]
      exact ih

/-- The lanes for a target show the decisions on it. -/
theorem Mirrors.holdersOf (h : m.Mirrors k) (id : EntryId) :
    Shows (m.holdersOf id) (k.decisionsOf id) :=
  shows_getD_of_rows h.rows id

/-- The two memories give the same answers. -/
theorem Mirrors.get? (h : m.Mirrors k) (p : Principal) (target : Entry) (right : Right)
    (delegate : Bool) : m.get? p target right delegate = k.get? p target right delegate := by
  unfold LanedMemo.get? DecisionMemo.get?
  cases DecisionMemo.key? p right delegate with
  | none => rfl
  | some key => exact h.holdersOf target.id key

/-- Both memories hold decisions on as many targets. -/
theorem Mirrors.count (h : m.Mirrors k) : m.count = k.count :=
  h.rows.length_eq

/-- A row that is put under one target on both sides leaves the rows in correspondence. -/
theorem forall₂_put {held : List (EntryId × Table EntryId Lanes)}
    {rows : List (EntryId × Table DecisionKey Decision)} (h : List.Forall₂ SameRow held rows)
    (id : EntryId) (hshows : Shows holders decisions) :
    List.Forall₂ SameRow (Table.put id holders held) (Table.put id decisions rows) := by
  induction h with
  | nil => exact .cons ⟨rfl, hshows⟩ .nil
  | @cons first row held rows hrow hrest ih =>
    unfold Table.put
    rw [hrow.1]
    by_cases hid : row.1 = id
    · rw [if_pos hid, if_pos hid]
      exact .cons ⟨rfl, hshows⟩ hrest
    · rw [if_neg hid, if_neg hid]
      exact .cons hrow ih

/-- A decision that is put keeps the two memories in step, the eviction before it included. -/
theorem Mirrors.put (h : m.Mirrors k) (p : Principal) (target : Entry) (right : Right)
    (delegate : Bool) (decision : Decision) :
    (m.put p target right delegate decision).Mirrors (k.put p target right delegate decision) := by
  unfold LanedMemo.put DecisionMemo.put
  cases DecisionMemo.key? p right delegate with
  | none => exact h
  | some key =>
    by_cases hpseudo : target.isPseudo = true
    · simp only [if_pos hpseudo]
      exact h
    · simp only [if_neg hpseudo]
      have hrows := forall₂_put h.rows target.id ((h.holdersOf target.id).insert key decision)
      refine ⟨h.room, ?_⟩
      show List.Forall₂ SameRow (evict _ (Table.put _ _ _)) (List.drop _ (Table.put _ _ _))
      rw [evict_eq_drop, hrows.length_eq, h.room]
      exact List.forall₂_drop _ hrows

/-- A change of grants makes both memories forget the same targets. -/
theorem Mirrors.invalidate (h : m.Mirrors k) (target : Entry) :
    (m.invalidate target).Mirrors (k.invalidate target) := by
  unfold LanedMemo.invalidate DecisionMemo.invalidate
  by_cases haccount : target.isAccount = true
  · rw [if_pos haccount, if_pos haccount]
    refine ⟨h.room, List.rel_filter ?_ h.rows⟩
    intro held row hrow
    simp only [hrow.1]
  · rw [if_neg haccount, if_neg haccount]
    exact ⟨h.room, .nil⟩

end LanedMemo

end DirectoryRights
