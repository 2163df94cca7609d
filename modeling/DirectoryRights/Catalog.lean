import DirectoryRights.Catalog.Definition
import DirectoryRights.Right.ByName
import DirectoryRights.Text.Blank

/-!
# The catalog of rights

A catalog grows by one accepted definition at a time. A definition is refused as a whole or adds one
right at the end: names stay unique, the members of a combo are rights that existed before it, and
the slots are handed out in the order of definition without gaps. A name that is not in the
catalog but has a dot in it may still stand for an attribute right of its own.
-/

set_option autoImplicit false

namespace DirectoryRights

/-- The defined rights, in the order of their definition. -/
structure Catalog where
  /-- The rights. -/
  rights : List Right

namespace Catalog

/-- The catalog without rights. -/
def empty : Catalog := ⟨[]⟩

/-- The defined right of a name. -/
def get? (c : Catalog) (name : String) : Option Right :=
  c.rights.find? (·.name = name)

/-- The number of slots in use. -/
def slotsUsed (c : Catalog) : Nat :=
  c.rights.countP (·.label.slot.isSome)

/-- The right of a name, defined or spelled out by the name. -/
def lookup (c : Catalog) (name : String) : Except Error Right :=
  match c.get? name with
  | some right => .ok right
  | none =>
    if Text.mentions '.' name then Right.ofName name else .error (.unknownRight name)

/-- What is wrong with a definition before its kind is looked at. -/
def objection? (c : Catalog) (d : Definition) (name : String) : Option Error :=
  if name = "" then some .emptyRightName
  else if (c.get? name).isSome then some (.duplicateRight name)
  else if d.user ∧ d.kind ≠ .preset then some (.userRightNotPreset name)
  else if d.user ∧ Text.mentions '.' name then some (.userRightDotted name)
  else if d.grantTarget.isSome ∧ ¬ d.user then some (.grantTargetOnAdminRight name)
  else none

/-- The target types of a preset; a user right is for accounts unless it names another kind. -/
def presetTargets (d : Definition) : List TargetType :=
  match d.target with
  | some written => written.toList
  | none => if d.user then [.account] else []

/-- The preset of a definition. -/
def buildPreset (label : Label) (d : Definition) : Except Error Right :=
  match presetTargets d with
  | [target] =>
    if d.user then
      match d.grantTarget with
      | some grantTarget =>
        if SingleRight.grantsReach target true grantTarget then
          .ok (.preset label target (.users (some grantTarget)))
        else
          .error (.grantTargetUnreachable grantTarget label.name)
      | none => .ok (.preset label target (.users none))
    else
      .ok (.preset label target .admins)
  | _ => .error (.presetTargetCount label.name)

/-- The attribute right of a definition. -/
def buildAttrs (label : Label) (access : AttrAccess) (d : Definition) : Except Error Right :=
  let named := (d.target.map WrittenTargets.toList).getD []
  let targets := TargetType.all.filter named.contains
  if targets = [] then .error (.attrRightWithoutTarget label.name)
  else
    match d.attrs with
    | none => .ok (.attrs label access targets .all)
    | some [] => .error (.attrRightWithoutAttrs label.name)
    | some names => .ok (.attrs label access targets (.ofList names))

/-- A member of the combo `name`: a right that exists and may be bundled. -/
def member (c : Catalog) (name memberName : String) : Except Error Right :=
  match c.lookup memberName with
  | .error cause =>
    .error (if cause.kind = .notFound then .comboMemberUndefined name memberName else cause)
  | .ok right =>
    if right.isUserRight then .error (.comboMemberUserRight name memberName)
    else if right.isCrossDomainAdmin then .error (.comboMemberCrossDomain name)
    else .ok right

/-- The combo of a definition. -/
def buildCombo (c : Catalog) (label : Label) (d : Definition) : Except Error Right :=
  if d.target.isSome then .error (.comboWithTarget label.name)
  else if d.rights = [] then .error (.comboWithoutMembers label.name)
  else (d.rights.mapM (c.member label.name)).map (.combo label)

/-- The right that a definition adds to the catalog. -/
def accept (c : Catalog) (d : Definition) : Except Error Right :=
  let name := Text.trim d.name
  match c.objection? d name with
  | some objection => .error objection
  | none =>
    let slot := if d.cache then some c.slotsUsed else none
    let label : Label := { name, description := d.description, default := d.default, slot }
    match d.kind with
    | .preset => buildPreset label d
    | .getAttrs => buildAttrs label .read d
    | .setAttrs => buildAttrs label .write d
    | .combo => c.buildCombo label d

/-- The catalog with one more right. -/
def push (c : Catalog) (right : Right) : Catalog :=
  ⟨c.rights ++ [right]⟩

/-- The catalog after a definition. -/
def define (c : Catalog) (d : Definition) : Except Error Catalog :=
  (c.accept d).map c.push

/-- The catalog of a list of definitions; the first refused one is the answer. -/
def ofDefinitions (ds : List Definition) : Except Error Catalog :=
  ds.foldlM define empty

end Catalog

end DirectoryRights
