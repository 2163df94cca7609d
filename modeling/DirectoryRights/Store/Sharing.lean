import DirectoryRights.Store
import DirectoryRights.Grant.Validity
import DirectoryRights.Expiry

/-!
# Granting and revoking

Every change starts from the stored grants, never from the memo, and writes the whole set back. What
changes nothing is not written. A grant that could not be read back, or that cannot be made on an
entry of this kind, refuses the whole request, and so does an end that the expiry policy refuses.
-/

set_option autoImplicit false

namespace DirectoryRights.Store

/-- What is wrong with making a grant on an entry. -/
def objection? (target : Entry) (g : Grant) : Option Error :=
  g.objection? <|>
    if g.right.canBeGrantedOn target.targetType then none
    else some (.notGrantable g.right.name target.targetType)

/-- Writes a set as the grants of an entry. -/
def write (s : Store) (target : Entry) (set : GrantSet) : Except Error Store :=
  s.modify target [(grantAttribute, set.lines)]

/-- Writes a changed set; without a change the store is left alone. -/
def commit (s : Store) (target : Entry) : GrantSet × List Grant → Except Error (List Grant × Store)
  | (_, []) => .ok ([], s)
  | (set, changed) => (s.write target set).map (changed, ·)

/-- Adds grants to an entry. Gives the grants that changed the stored set. -/
def grant (c : Catalog) (s : Store) (target : Entry) (gs : List Grant) :
    Except Error (List Grant × Store) :=
  match gs.findSome? (objection? target) with
  | some objection => .error objection
  | none => (s.read c target).bind fun set => s.commit target (set.grant gs)

/-- Takes grants from an entry. Gives the grants that were stored. -/
def revoke (c : Catalog) (s : Store) (target : Entry) (gs : List Grant) :
    Except Error (List Grant × Store) :=
  (s.read c target).bind fun set => s.commit target (set.revoke gs)

/-- Adds grants that end. Admin rights do not end, and the end has to agree with the policy of a
longest lifetime. Gives the grants that changed the stored set, and the end. -/
def grantUntil (c : Catalog) (maxLifetime : Int) (s : Store) (target : Entry) (gs : List Grant)
    (expiry : Option String) (now : Int) : Except Error ((List Grant × Int) × Store) :=
  match gs.find? (!·.right.isUserRight) with
  | some g => .error (.adminRightExpiry g.right.name)
  | none =>
    (Expiry.decide expiry maxLifetime now).bind fun ending =>
      (s.grant c target gs).map fun (granted, s) => ((granted, ending), s)

end DirectoryRights.Store
