import DirectoryRights.Error
import DirectoryRights.Text.Split

/-!
# External groups

A group kept outside the directory is named by the id of the domain through which it is reached and
by its address, with a colon between them.
-/

set_option autoImplicit false

namespace DirectoryRights

/-- The name of a group in an external directory. -/
structure ExternalGroup where
  /-- The id of the domain whose external source holds the group. -/
  domainId : String
  /-- The address of the group. -/
  email : String
deriving DecidableEq

namespace ExternalGroup

/-- The text that names the group. -/
def text (g : ExternalGroup) : String :=
  g.domainId ++ ":" ++ g.email

/-- The group a text names: two parts around one colon, none of them empty. -/
def parse (s : String) : Except Error ExternalGroup :=
  match Text.parts ':' s with
  | [domainId, email] =>
    if domainId ≠ "" ∧ email ≠ "" then .ok { domainId, email } else .error (.externalGroupShape s)
  | _ => .error (.externalGroupShape s)

end ExternalGroup

end DirectoryRights
