import DirectoryRights.Table
import DirectoryRights.Decision
import DirectoryRights.Principal

/-!
# Remembered decisions

Decisions are remembered by target, principal, slot of the right and purpose of the check. Rights
without a slot and principals without an entry are never remembered, nor is anything about an entry
that does not exist. When there are too many targets the one that has been there longest goes, with
all its decisions. A change of the grants on an account concerns that account alone; grants on any
other entry may be inherited, and after a change of them nothing is remembered.
-/

set_option autoImplicit false

namespace DirectoryRights

/-- What a decision on one target is remembered by. -/
structure DecisionKey where
  /-- The entry behind the principal. -/
  holder : EntryId
  /-- The slot of the right. -/
  slot : Nat
  /-- Whether the right was to be passed on. -/
  delegate : Bool
deriving DecidableEq

/-- Decisions by target. -/
structure DecisionMemo where
  /-- The number of targets it may hold; at least one is held. -/
  limit : Nat
  /-- The decisions of each target. -/
  targets : Table EntryId (Table DecisionKey Decision)

namespace DecisionMemo

/-- The memory without decisions. -/
def empty (limit : Nat) : DecisionMemo :=
  { limit, targets := .empty }

/-- The number of targets it holds at most. -/
def capacity (k : DecisionMemo) : Nat :=
  max 1 k.limit

/-- The number of targets with decisions. -/
def count (k : DecisionMemo) : Nat :=
  k.targets.size

/-- What decisions on a right for a principal are remembered by, if they are. -/
def key? (p : Principal) (right : Right) (delegate : Bool) : Option DecisionKey :=
  p.id?.bind fun holder => right.label.slot.map fun slot => { holder, slot, delegate }

/-- The decisions on a target. -/
def decisionsOf (k : DecisionMemo) (target : EntryId) : Table DecisionKey Decision :=
  (k.targets.get? target).getD .empty

/-- The remembered decision. -/
def get? (k : DecisionMemo) (p : Principal) (target : Entry) (right : Right) (delegate : Bool) :
    Option Decision :=
  (key? p right delegate).bind (k.decisionsOf target.id).get?

/-- The memory without its oldest targets beyond the capacity. -/
def trim (k : DecisionMemo) : DecisionMemo :=
  { k with targets := ⟨k.targets.rows.drop (k.count - k.capacity)⟩ }

/-- The memory with one more decision. -/
def put (k : DecisionMemo) (p : Principal) (target : Entry) (right : Right) (delegate : Bool)
    (decision : Decision) : DecisionMemo :=
  match key? p right delegate with
  | none => k
  | some key =>
    if target.isPseudo then k
    else
      let decisions := (k.decisionsOf target.id).insert key decision
      { k with targets := k.targets.insert target.id decisions }.trim

/-- The memory after a change of the grants on an entry. -/
def invalidate (k : DecisionMemo) (target : Entry) : DecisionMemo :=
  if target.isAccount then { k with targets := k.targets.erase target.id }
  else { k with targets := .empty }

end DecisionMemo

end DirectoryRights
