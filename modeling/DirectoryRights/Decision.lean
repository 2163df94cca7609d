import DirectoryRights.Right
import DirectoryRights.GranteeType

/-!
# Decisions

A check allows, denies or leaves open. What is left open is settled by the default of the right, and
where it has none by the caller.
-/

set_option autoImplicit false

namespace DirectoryRights

/-- The outcome of a check. -/
inductive Decision where
  /-- A grant or a rule allows. -/
  | allow
  /-- A grant denies, or the right was granted to others only. -/
  | deny
  /-- No grant mentions the right. -/
  | undecided
deriving DecidableEq

namespace Decision

/-- Every decision. -/
def all : List Decision :=
  [allow, deny, undecided]

/-- The text of a decision. -/
def text : Decision → String
  | allow => "ALLOW"
  | deny => "DENY"
  | undecided => "NO-DECISION"

/-- The name of a decision in reports. -/
def title : Decision → String
  | allow => "Allow"
  | deny => "Deny"
  | undecided => "NoDecision"

/-- The decision as yes or no, with `fallback` where it is open. -/
def holds (d : Decision) (fallback : Bool) : Bool :=
  match d with
  | allow => true
  | deny => false
  | undecided => fallback

/-- The decision as yes or no, with the default of the right before `fallback`. -/
def holdsUnder (d : Decision) (default : Option DefaultAnswer) (fallback : Bool) : Bool :=
  d.holds <| match default with
    | some .allow => true
    | some .deny => false
    | none => fallback

/-- Whether the decision settles the matter. -/
def isSettled (d : Decision) : Bool :=
  d ≠ undecided

end Decision

end DirectoryRights
