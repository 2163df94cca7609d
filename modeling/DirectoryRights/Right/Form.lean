import DirectoryRights.TargetType
import DirectoryRights.Text.Fold

/-!
# What rights are made of

A preset right names one operation, an attribute right governs the reading or the writing of
attributes, and a combo bundles other rights. A combo amounts to its leaves, the single rights found
in it at any depth.
-/

set_option autoImplicit false

namespace DirectoryRights

/-- The answer to a check that no grant decides. -/
inductive DefaultAnswer where
  /-- Allowed unless granted otherwise. -/
  | allow
  /-- Denied unless granted. -/
  | deny
deriving DecidableEq

namespace DefaultAnswer

/-- Both default answers. -/
def all : List DefaultAnswer :=
  [allow, deny]

/-- The name of a default answer in definitions. -/
def code : DefaultAnswer → String
  | allow => "allow"
  | deny => "deny"

/-- The name of a default answer in reports. -/
def title : DefaultAnswer → String
  | allow => "Allow"
  | deny => "Deny"

end DefaultAnswer

/-- The kind of a right. -/
inductive RightKind where
  /-- One named operation. -/
  | preset
  /-- Reading attributes. -/
  | getAttrs
  /-- Writing attributes. -/
  | setAttrs
  /-- A bundle of admin rights. -/
  | combo
deriving DecidableEq

namespace RightKind

/-- Every kind of right. -/
def all : List RightKind :=
  [preset, getAttrs, setAttrs, combo]

/-- The name of a kind of right. -/
def code : RightKind → String
  | preset => "preset"
  | getAttrs => "getAttrs"
  | setAttrs => "setAttrs"
  | combo => "combo"

end RightKind

/-- What is done to attributes. -/
inductive AttrAccess where
  /-- They are read. -/
  | read
  /-- They are written. -/
  | write
deriving DecidableEq

/-- The attributes an attribute right governs. -/
inductive AttributeSet where
  /-- All attributes of the target. -/
  | all
  /-- The listed attributes, in increasing order and without repetition. -/
  | named (names : List String)
deriving DecidableEq

namespace AttributeSet

/-- The set of the attributes in a list. -/
def ofList (names : List String) : AttributeSet :=
  named (names.mergeSort (fun a b => a ≤ b)).eraseDups

/-- Whether an attribute is in the set, whatever the case of its letters. -/
def includes : AttributeSet → String → Bool
  | all, _ => true
  | named names, attr => names.any (Text.sameFolded · attr)

end AttributeSet

/-- Who is to hold a preset right. -/
inductive Audience where
  /-- Admins. -/
  | admins
  /-- Users; the right may be confined to grants on entries of one kind. -/
  | users (grantTarget : Option TargetType)
deriving DecidableEq

/-- What a right carries whatever its kind. -/
structure Label where
  /-- The name of the right. -/
  name : String
  /-- What the right is for. -/
  description : Option String
  /-- The answer where no grant mentions the right. -/
  default : Option DefaultAnswer
  /-- The place under which decisions on the right are remembered, if they are. -/
  slot : Option Nat
deriving DecidableEq

/-- A right that bundles no others. -/
inductive SingleRight where
  /-- One operation on entries of one kind. -/
  | preset (label : Label) (target : TargetType) (audience : Audience)
  /-- Access to attributes of entries of some kinds, listed in the order of all kinds. -/
  | attrs (label : Label) (access : AttrAccess) (targets : List TargetType)
    (governed : AttributeSet)
deriving DecidableEq

namespace SingleRight

/-- What the right carries whatever its kind. -/
def label : SingleRight → Label
  | preset label _ _ => label
  | attrs label _ _ _ => label

/-- The name of the right. -/
def name (s : SingleRight) : String :=
  s.label.name

/-- The kind of the right. -/
def kind : SingleRight → RightKind
  | preset _ _ _ => .preset
  | attrs _ .read _ _ => .getAttrs
  | attrs _ .write _ _ => .setAttrs

/-- Whether the right is held by users rather than admins. -/
def isUserRight : SingleRight → Bool
  | preset _ _ (.users _) => true
  | preset _ _ .admins | attrs _ _ _ _ => false

/-- Whether the right is one operation. -/
def isPreset : SingleRight → Bool
  | preset _ _ _ => true
  | attrs _ _ _ _ => false

/-- The kinds of entry the right names. -/
def targets : SingleRight → List TargetType
  | preset _ target _ => [target]
  | attrs _ _ targets _ => targets

/-- The kind of entry of a preset. -/
def presetTarget? : SingleRight → Option TargetType
  | preset _ target _ => some target
  | attrs _ _ _ _ => none

/-- The kind of entry to which grants of the right are confined. -/
def confinedTo? : SingleRight → Option TargetType
  | preset _ _ (.users grantTarget) => grantTarget
  | preset _ _ .admins | attrs _ _ _ _ => none

/-- The attributes an attribute right governs. -/
def attributes? : SingleRight → Option AttributeSet
  | preset _ _ _ => none
  | attrs _ _ _ governed => some governed

/-- Whether grants on an entry of kind `source` reach the entries on which a preset for `target` is
executed. User rights do not tell accounts from calendar resources, nor the two kinds of group. -/
def grantsReach (target : TargetType) (userRight : Bool) (source : TargetType) : Bool :=
  source.reaches target || (userRight && source.reaches target.userTwin)

/-- Whether the right is executed on entries of a kind. -/
def worksOn (t : TargetType) : SingleRight → Bool
  | preset _ target .admins => target = t
  | preset _ target (.users _) => target.userClass = t.userClass
  | attrs _ _ targets _ => targets.contains t

/-- Whether the right is granted on entries of a kind. -/
def canBeGrantedOn (t : TargetType) : SingleRight → Bool
  | preset _ target .admins => grantsReach target false t
  | preset _ target (.users none) => grantsReach target true t
  | preset _ _ (.users (some grantTarget)) => grantTarget.userClass = t.userClass
  | attrs _ _ targets _ => targets.all (t.reaches ·)

/-- Whether the right is the preset of a name. -/
def isPresetNamed (name : String) (s : SingleRight) : Bool :=
  s.isPreset && s.name = name

end SingleRight

/-- How a right is put together. -/
inductive RightForm where
  /-- A right by itself. -/
  | single (s : SingleRight)
  /-- The rights in a bundle. -/
  | combo (label : Label) (members : List RightForm)

namespace RightForm

/-- What the right carries whatever its kind. -/
def label : RightForm → Label
  | single s => s.label
  | combo label _ => label

/-- The name of the right. -/
def name (f : RightForm) : String :=
  f.label.name

/-- The right itself, if it is no bundle. -/
def single? : RightForm → Option SingleRight
  | single s => some s
  | combo _ _ => none

/-- The rights directly in a bundle. -/
def members : RightForm → List RightForm
  | single _ => []
  | combo _ members => members

mutual

/-- The single rights that a right amounts to. -/
def leaves : RightForm → List SingleRight
  | single s => [s]
  | combo _ members => leavesOf members

/-- The single rights that a list of rights amounts to. -/
def leavesOf : List RightForm → List SingleRight
  | [] => []
  | f :: rest => leaves f ++ leavesOf rest

end

/-- The leaves of several forms are those of each of them, one after the other. -/
theorem leavesOf_eq_flatMap (fs : List RightForm) : leavesOf fs = fs.flatMap leaves := by
  induction fs with
  | nil => rfl
  | cons f rest ih => simp [leavesOf, ih]

end RightForm

end DirectoryRights
