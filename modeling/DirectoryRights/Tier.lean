import DirectoryRights.GranteeType

/-!
# Tiers of specificity

The grants of a level are searched in tiers: first those to one grantee, then those to groups, then,
for user rights alone, those to domains, to all authenticated accounts and to everyone.
-/

set_option autoImplicit false

namespace DirectoryRights

/-- One tier of a search. -/
structure Tier where
  /-- What a grantee type must have to be in the tier. -/
  required : List Capability
  /-- Whether grantees are matched through groups. -/
  viaGroups : Bool
deriving DecidableEq

namespace Tier

/-- The tiers in the order in which they are searched. -/
def all (userRight : Bool) : List Tier :=
  if userRight then
    [⟨[.individual], false⟩, ⟨[.group], true⟩, ⟨[.domain], false⟩, ⟨[.authUser], false⟩,
      ⟨[.everyone], false⟩]
  else
    [⟨[.admin, .individual], false⟩, ⟨[.group], true⟩]

/-- Whether grantees of a type are in the tier. -/
def admits (t : Tier) (g : GranteeType) : Bool :=
  g.hasAll t.required

end Tier

end DirectoryRights
