import DirectoryRights.Right

/-!
# Right definitions

What a document says of a right before the catalog accepts it. All combinations of fields can be
written down; which of them make a right is decided by the catalog.
-/

set_option autoImplicit false

namespace DirectoryRights

/-- The target types of a definition, as they are written. -/
inductive WrittenTargets where
  /-- One target type. -/
  | one (target : TargetType)
  /-- A list of target types. -/
  | many (targets : List TargetType)
deriving DecidableEq

/-- The target types of a specification. -/
def WrittenTargets.toList : WrittenTargets → List TargetType
  | one target => [target]
  | many targets => targets

/-- The definition of one right. -/
structure Definition where
  /-- The name of the right; blanks around it do not count. -/
  name : String
  /-- The kind of the right. -/
  kind : RightKind
  /-- Whether the right is held by users. -/
  user : Bool
  /-- The target types on which the right is executed. -/
  target : Option WrittenTargets
  /-- The target type to which grants are confined. -/
  grantTarget : Option TargetType
  /-- The answer where no grant mentions the right. -/
  default : Option DefaultAnswer
  /-- Whether decisions on the right are cached. -/
  cache : Bool
  /-- The attributes of an attribute right; all attributes if absent. -/
  attrs : Option (List String)
  /-- The names of the members of a combo. -/
  rights : List String
  /-- What the right is for. -/
  description : Option String
deriving DecidableEq

namespace Definition

/-- A preset on entries of one kind. -/
def preset (name : String) (target : TargetType) (user : Bool) : Definition :=
  { name, kind := .preset, user, target := some (.one target), grantTarget := none, default := none,
    cache := false, attrs := none, rights := [], description := none }

/-- A bundle of the named rights. -/
def combo (name : String) (members : List String) : Definition :=
  { name, kind := .combo, user := false, target := none, grantTarget := none, default := none,
    cache := false, attrs := none, rights := members, description := none }

end Definition

end DirectoryRights
