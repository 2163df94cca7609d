import DirectoryRights.Right.Form

/-!
# Rights

A right keeps its leaves beside its form, each of them once, because a bundle may hold the same
right in a great many ways: what a bundle reaches and what it meets is said of the leaves alone, and
is found without walking through the bundle.
-/

set_option autoImplicit false

namespace DirectoryRights

/-- A right. -/
structure Right where
  /-- How the right is put together. -/
  form : RightForm
  /-- The single rights that the right amounts to. -/
  leaves : List SingleRight
  /-- The leaves are those of the form. -/
  mem_leaves : ∀ s, s ∈ leaves ↔ s ∈ form.leaves

/-- The name of the right that opens a domain to the admins of another. -/
def crossDomainAdmin : String := "crossDomainAdmin"

namespace Right

/-- A right that is no bundle. -/
def ofSingle (s : SingleRight) : Right where
  form := .single s
  leaves := [s]
  mem_leaves := fun _ => by simp [RightForm.leaves]

/-- One operation on entries of one kind. -/
def preset (label : Label) (target : TargetType) (audience : Audience) : Right :=
  ofSingle (.preset label target audience)

/-- Access to attributes of entries of some kinds. -/
def attrs (label : Label) (access : AttrAccess) (targets : List TargetType)
    (governed : AttributeSet) : Right :=
  ofSingle (.attrs label access targets governed)

/-- The bundle of some rights. -/
def combo (label : Label) (members : List Right) : Right where
  form := .combo label (members.map form)
  leaves := (members.flatMap leaves).eraseDups
  mem_leaves := fun _ => by
    simp [RightForm.leaves, RightForm.leavesOf_eq_flatMap, List.flatMap_map, mem_leaves]

/-- What the right carries whatever its kind. -/
def label (r : Right) : Label :=
  r.form.label

/-- The name of the right. -/
def name (r : Right) : String :=
  r.label.name

/-- The right itself, if it is no bundle. -/
def single? (r : Right) : Option SingleRight :=
  r.form.single?

/-- The kind of the right. -/
def kind (r : Right) : RightKind :=
  (r.single?.map SingleRight.kind).getD .combo

/-- Whether the right is held by users rather than admins. -/
def isUserRight (r : Right) : Bool :=
  r.single?.any (·.isUserRight)

/-- Whether the right is one operation. -/
def isPreset (r : Right) : Bool :=
  r.single?.any (·.isPreset)

/-- Whether the right governs attributes. -/
def isAttributeRight (r : Right) : Bool :=
  r.single?.any (!·.isPreset)

/-- Whether the right is a bundle. -/
def isCombo (r : Right) : Bool :=
  r.single?.isNone

/-- Whether this is the right that opens a domain to the admins of another. -/
def isCrossDomainAdmin (r : Right) : Bool :=
  r.name = crossDomainAdmin

/-- The kinds of entry the right itself names. -/
def targets (r : Right) : List TargetType :=
  (r.single?.map SingleRight.targets).getD []

/-- The kind of entry of a preset. -/
def presetTarget? (r : Right) : Option TargetType :=
  r.single?.bind SingleRight.presetTarget?

/-- The kind of entry to which grants of the right are confined. -/
def confinedTo? (r : Right) : Option TargetType :=
  r.single?.bind SingleRight.confinedTo?

/-- The attributes an attribute right governs. -/
def attributes? (r : Right) : Option AttributeSet :=
  r.single?.bind SingleRight.attributes?

/-- Whether an attribute is governed by the right. -/
def governs (r : Right) (attr : String) : Bool :=
  r.attributes?.any (·.includes attr)

/-- The names of the rights directly in a bundle. -/
def memberNames (r : Right) : List String :=
  r.form.members.map RightForm.name

/-- Whether the right, or one right in the bundle, is executed on entries of a kind. -/
def worksOn (r : Right) (t : TargetType) : Bool :=
  r.leaves.any (·.worksOn t)

/-- Whether the right, or every right in the bundle, is granted on entries of a kind. -/
def canBeGrantedOn (r : Right) (t : TargetType) : Bool :=
  !r.leaves.isEmpty && r.leaves.all (·.canBeGrantedOn t)

/-- Whether the right can be passed on, or else used, on entries of a kind. -/
def suits (r : Right) (t : TargetType) (delegate : Bool) : Bool :=
  if delegate then r.canBeGrantedOn t else r.worksOn t

/-- Whether a grant of the right may be kept for the domains below the one it is stored on. -/
def allowsSubDomain (r : Right) : Bool :=
  r.worksOn .domain

/-- Whether a grant of the right may be kept from the members of nested groups. -/
def allowsDisinherit (r : Right) : Bool :=
  r.worksOn .distributionList || r.worksOn .account || r.worksOn .calResource

/-- Whether a grant of this right answers a check of the preset `needed`. -/
def meets (r needed : Right) : Bool :=
  r.leaves.any (·.isPresetNamed needed.name)

/-- Whether the bundle holds the preset `needed` at any depth. -/
def bundles (r needed : Right) : Bool :=
  r.isCombo && r.meets needed

/-- Whether two rights have one name and one kind. -/
def same (r s : Right) : Bool :=
  r.name = s.name && r.kind = s.kind

end Right

end DirectoryRights
