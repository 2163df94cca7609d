import DirectoryRights.GranteeType
import DirectoryRights.Right

/-!
# Grants

A grant gives a right to a grantee, or denies it. A modifier says what is special about it: that it
denies, that its holder may pass the right on, that it is meant for the domains below the one it is
stored on, or that it stays with the direct members of a group. What a grant is about, its grantee
and its right, is its slot.
-/

set_option autoImplicit false

namespace DirectoryRights

/-- What is special about a grant. -/
inductive Modifier where
  /-- The right is denied. -/
  | deny
  /-- The holder may pass the right on. -/
  | delegate
  /-- The grant is meant for the domains below. -/
  | subDomain
  /-- The grant is not inherited by members of nested groups. -/
  | disinherit
deriving DecidableEq

namespace Modifier

/-- Every modifier. -/
def all : List Modifier :=
  [deny, delegate, subDomain, disinherit]

/-- The character that stands for a modifier. -/
def char : Modifier → Char
  | deny => '-'
  | delegate => '+'
  | subDomain => '*'
  | disinherit => '^'

/-- The modifier a character stands for. -/
def ofChar? (c : Char) : Option Modifier :=
  all.find? (·.char = c)

end Modifier

/-- The entry on which a grant was found. -/
structure Origin where
  /-- The kind of the entry. -/
  targetType : TargetType
  /-- The name of the entry. -/
  targetName : String
deriving DecidableEq

/-- What a grant is about. -/
structure Slot where
  /-- Whom the grant is made to. -/
  grantee : String
  /-- What kind of grantee that is. -/
  granteeType : GranteeType
  /-- The name of the right. -/
  right : String
deriving DecidableEq

/-- A right given to a grantee, or denied. -/
structure Grant where
  /-- Whom the grant is made to, as stored. -/
  grantee : String
  /-- What kind of grantee that is. -/
  granteeType : GranteeType
  /-- The granted right. -/
  right : Right
  /-- What is special about the grant. -/
  modifier : Option Modifier
  /-- The password or the key of the grantee. -/
  secret : Option String
  /-- Where the grant was found; never stored. -/
  origin : Option Origin

namespace Grant

/-- A new grant. Grantee types that name no one in particular have their fixed grantee. -/
def make (grantee : String) (granteeType : GranteeType) (right : Right)
    (modifier : Option Modifier) (secret : Option String) : Grant :=
  { grantee := granteeType.fixedId?.getD grantee, granteeType, right, modifier, secret,
    origin := none }

/-- What the grant is about. -/
def slot (g : Grant) : Slot :=
  { grantee := g.grantee, granteeType := g.granteeType, right := g.right.name }

/-- Whether the right is denied. -/
def denies (g : Grant) : Bool :=
  g.modifier = some .deny

/-- Whether the holder may pass the right on. -/
def isDelegable (g : Grant) : Bool :=
  g.modifier = some .delegate

/-- Whether the grant is meant for the domains below. -/
def isSubDomain (g : Grant) : Bool :=
  g.modifier = some .subDomain

/-- Whether the grant stays with the direct members of a group. -/
def isDisinherit (g : Grant) : Bool :=
  g.modifier = some .disinherit

/-- Whether the right is given for use only. -/
def isForUse (g : Grant) : Bool :=
  !g.isDelegable && !g.denies

/-- Whether two grants have one slot and one modifier. -/
def sameTerms (g h : Grant) : Bool :=
  g.slot = h.slot && g.modifier = h.modifier

/-- Whether two grants say the same, wherever they were found. -/
def same (g h : Grant) : Bool :=
  g.sameTerms h && g.secret = h.secret

/-- Two grants say the same exactly if they agree in slot, modifier and secret. -/
theorem same_iff {g h : Grant} :
    g.same h = true ↔ g.slot = h.slot ∧ g.modifier = h.modifier ∧ g.secret = h.secret := by
  unfold same sameTerms
  simp only [Bool.and_eq_true, decide_eq_true_eq, and_assoc]

/-- Grants in the order in which they are searched: those that deny, those that can be passed on,
and those for use only, each kind in its given order. -/
def ranked (gs : List Grant) : List Grant :=
  gs.filter denies ++ gs.filter isDelegable ++ gs.filter isForUse

end Grant

end DirectoryRights
