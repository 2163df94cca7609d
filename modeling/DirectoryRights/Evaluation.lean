import DirectoryRights.Decision
import DirectoryRights.Grant

/-!
# Evaluations

A decision together with the grant that made it, where one did and the caller wants to know.
-/

set_option autoImplicit false

namespace DirectoryRights

/-- The grant that made a decision, as it is reported. -/
structure Via where
  /-- The kind of the entry that stores the grant. -/
  targetType : Option TargetType
  /-- The name of the entry that stores the grant. -/
  targetName : Option String
  /-- The kind of grantee. -/
  granteeType : GranteeType
  /-- The grantee. -/
  grantee : String
  /-- The granted right, which may be a combo that holds the right asked for. -/
  right : String
  /-- Whether the grant denies. -/
  negative : Bool
deriving DecidableEq

namespace Via

/-- The report of a grant. -/
def ofGrant (g : Grant) : Via where
  targetType := g.origin.map (·.targetType)
  targetName := g.origin.map (·.targetName)
  granteeType := g.granteeType
  grantee := g.grantee
  right := g.right.name
  negative := g.denies

/-- The granted right with a minus sign before a denied one. -/
def signedRight (v : Via) : String :=
  (if v.negative then "-" else "") ++ v.right

/-- The name of the entry that stores the grant, as far as it is known. -/
def place (v : Via) : String :=
  v.targetName.getD "?"

/-- The text of a report. -/
def text (v : Via) : String :=
  let kind := (v.targetType.map TargetType.code).getD "?"
  s!"{v.signedRight} granted to {v.granteeType.code} {v.grantee} on {kind}={v.place}"

end Via

/-- A decision and what made it. -/
structure Evaluation where
  /-- The decision. -/
  decision : Decision
  /-- The deciding grant; absent where a rule or a memo decided, or where it was not asked for. -/
  via : Option Via
deriving DecidableEq

/-- A decision without a deciding grant. -/
def Evaluation.bare (decision : Decision) : Evaluation :=
  { decision, via := none }

end DirectoryRights
