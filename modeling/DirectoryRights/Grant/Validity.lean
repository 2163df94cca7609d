import DirectoryRights.Grant
import DirectoryRights.Grant.ExternalGroup

/-!
# Which grants may be made

A grant is refused if its line could not be read back, or if it could never take effect.
-/

set_option autoImplicit false

namespace DirectoryRights.Grant

/-- What is wrong with the grantee or the secret of a grant. -/
def granteeObjection? (g : Grant) : Option Error :=
  if g.granteeType.carriesSecret then
    if Text.mentions ':' g.grantee then some (.granteeWithColon g.grantee)
    else if g.secret.any (Text.mentions ':') then some .secretWithColon
    else none
  else if g.secret.isSome then some (.secretNotCarried g.granteeType)
  else if Text.mentions ' ' g.grantee ∧ g.granteeType.isNamedById then
    some (.granteeWithSpace g.grantee)
  else if g.granteeType = .externalGroup then
    match ExternalGroup.parse g.grantee with
    | .error cause => some (.asInvalidRequest cause)
    | .ok _ => none
  else none

/-- What is wrong with giving this right to this kind of grantee. -/
def holderObjection? (g : Grant) : Option Error :=
  if !g.right.isUserRight ∧ !g.granteeType.mayHoldAdminRights then
    some (.granteeTypeNotAdmin g.granteeType g.right.name)
  else if g.right.isCrossDomainAdmin ∧ g.granteeType ≠ .domain then
    some (.crossDomainGrantee g.right.name)
  else none

/-- What is wrong with the modifier of a grant. -/
def modifierObjection? (g : Grant) : Option Error :=
  match g.modifier with
  | some .subDomain =>
    if g.right.allowsSubDomain then none else some (.subDomainModifier g.right.name)
  | some .disinherit =>
    if g.right.allowsDisinherit then none else some (.disinheritModifier g.right.name)
  | _ => none

/-- The first thing wrong with a grant. -/
def objection? (g : Grant) : Option Error :=
  g.granteeObjection? <|> g.holderObjection? <|> g.modifierObjection?

end DirectoryRights.Grant
