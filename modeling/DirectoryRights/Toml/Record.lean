import DirectoryRights.Toml.Fault
import DirectoryRights.Toml.Value
import DirectoryRights.Text.Numeral

/-!
# Records

A record is a table whose fields have given names. It may also be written as a list, with the values
of its fields in their order, and a moment has none of the fields. Fields without a name that is
asked for do not matter. A name from a closed list is written as a text, or as the only key of a
table with nothing under it.
-/

set_option autoImplicit false

namespace DirectoryRights.Toml

/-- How a value is read. -/
abbrev Decode (α : Type) := Value → Except Fault α

namespace Decode

/-- A text. -/
def text : Decode String
  | .text s => .ok s
  | _ => .error (.unexpected "a text")

/-- A truth value. -/
def truth : Decode Bool
  | .truth b => .ok b
  | _ => .error (.unexpected "true or false")

/-- A whole number. -/
def integer : Decode Int
  | .integer n => .ok n
  | _ => .error (.unexpected "a whole number")

/-- A whole number that is not negative. -/
def natural : Decode Nat
  | .integer (.ofNat n) => .ok n
  | _ => .error (.unexpected "a whole number from zero")

/-- A text of one character. -/
def char : Decode Char
  | .text s =>
    match s.toList with
    | [c] => .ok c
    | _ => .error (.unexpected "one character")
  | _ => .error (.unexpected "one character")

/-- A list, in brackets or as tables with headers. -/
def list {α : Type} (item : Decode α) : Decode (List α)
  | .array items => items.mapM item
  | .rows rows => rows.mapM fun fields => item (.table .header fields)
  | _ => .error (.unexpected "a list")

/-- Whether there is nothing in a list or a table. -/
def isNothing : Value → Bool
  | .array [] | .table _ ⟨[]⟩ | .rows [] => true
  | _ => false

/-- One of several names. -/
def choice {α : Type} (all : List α) (code : α → String) : Decode α
  | .text s => named s
  | .table _ ⟨[(key, v)]⟩ => if isNothing v then named key else fault
  | _ => fault
where
  /-- The choice of a name. -/
  named (s : String) : Except Fault α :=
    match all.find? (code · = s) with
    | some a => .ok a
    | none => fault
  /-- None of the names. -/
  fault : Except Fault α :=
    .error (.unexpected ("one of " ++ ", ".intercalate (all.map code)))

end Decode

/-- The values of the fields of a record. -/
abbrev Record := String → Option Value

namespace Record

/-- The record of a value, for fields of the given names in their order. -/
def ofValue (names : List String) : Decode Record
  | .table _ fields => .ok fields.get?
  | .array items => .ok fun name => (names.idxOf? name).bind (items[·]?)
  | .rows rows => .ok fun name =>
    (names.idxOf? name).bind fun i => rows[i]?.map (.table .header ·)
  | .moment _ => .ok fun _ => none
  | _ => .error (.unexpected "a table")

variable {α : Type}

/-- A field that has to be there. -/
def required (r : Record) (name : String) (decode : Decode α) : Except Fault α :=
  match r name with
  | some v => decode v
  | none => .error (.missing name)

/-- A field that has a value even where it is not there. -/
def orElse (r : Record) (name : String) (value : α) (decode : Decode α) : Except Fault α :=
  match r name with
  | some v => decode v
  | none => .ok value

/-- A field that may be missing. -/
def optional (r : Record) (name : String) (decode : Decode α) : Except Fault (Option α) :=
  match r name with
  | some v => (decode v).map some
  | none => .ok none

end Record

end DirectoryRights.Toml
