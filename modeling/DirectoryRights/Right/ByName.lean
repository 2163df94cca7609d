import DirectoryRights.Right
import DirectoryRights.Error
import DirectoryRights.Text.Split

/-!
# Attribute rights by name

A name of the form `get.<target type>.<attribute>` or `set.<target type>.<attribute>` is a right of
its own, on one attribute of entries of one kind, without being defined.
-/

set_option autoImplicit false

namespace DirectoryRights.Right

/-- The attribute access that the first part of a name stands for. -/
def accessNamed? (operation : String) : Option AttrAccess :=
  if operation = "get" then some .read
  else if operation = "set" then some .write
  else none

/-- The attribute right that a name stands for. -/
def ofName (name : String) : Except Error Right :=
  match Text.parts '.' name with
  | [operation, target, attr] =>
    match accessNamed? operation with
    | none => .error (.inlineOperation operation name)
    | some access =>
      match TargetType.ofCode? target with
      | none => .error (.asParse (.unknownTargetType target))
      | some t =>
        if !t.hasOwnAttributes then .error (.inlineTarget t name)
        else if attr = "" then .error (.inlineAttribute name)
        else
          .ok (.attrs { name, description := none, default := none, slot := none } access [t]
            (.named [attr]))
  | _ => .error (.inlineShape name)

end DirectoryRights.Right
