import DirectoryRights.Decision
import DirectoryRights.Principal
import DirectoryRights.Error

/-!
# Rules before any grant

A global admin who acts as an admin may do everything. Without that, an admin right is only for
delegated admins who act as such, and never on the account of a global admin. Some attributes can
never be granted.
-/

set_option autoImplicit false

namespace DirectoryRights

/-- The rules that come before grants. -/
structure PriorRules where
  /-- The attributes that can never be granted: ASCII letters in lower case, in increasing order and
  without repetition. -/
  forbidden : List String
deriving DecidableEq

namespace PriorRules

/-- The rules that forbid the given attributes. -/
def ofList (attrs : List String) : PriorRules :=
  ⟨((attrs.map Text.foldAscii).mergeSort (fun a b => a ≤ b)).eraseDups⟩

/-- What the rules say of a right on a target before any grant is read: an answer, a refusal, or
nothing. -/
def verdict (p : Principal) (target : Entry) (right : Right) (asAdmin : Bool) :
    Except Error (Option Decision) :=
  if asAdmin && p.isGlobalAdmin then .ok (some .allow)
  else if right.isUserRight then .ok none
  else if !(asAdmin && p.isDelegatedAdmin) then .error .notEligibleAdmin
  else if target.isGlobalAdmin then .error .globalAdminTarget
  else .ok none

/-- Refuses an attribute that can never be granted. -/
def attribute? (r : PriorRules) (attr : String) : Option Error :=
  if r.forbidden.contains (Text.foldAscii attr) then some (.forbiddenAttribute attr) else none

end PriorRules

end DirectoryRights
