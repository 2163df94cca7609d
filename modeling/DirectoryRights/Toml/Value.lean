import DirectoryRights.Table

/-!
# TOML values

A document is a table of values. A table remembers how it was written, because that decides who may
add to it: a table in braces is closed, a table with a header of its own takes more tables below it,
and a table that exists only because a header or a dotted key passes through it may still get what
its kind allows. Numbers with a fraction and times keep their written form.
-/

set_option autoImplicit false

namespace DirectoryRights.Toml

/-- How a table came to be. -/
inductive TableForm where
  /-- It was written in braces. -/
  | braces
  /-- It has a header of its own. -/
  | header
  /-- A header passes through it. -/
  | passed
  /-- A dotted key passes through it. -/
  | dotted
deriving DecidableEq

/-- A value of a document. -/
inductive Value where
  /-- A text. -/
  | text (s : String)
  /-- A whole number. -/
  | integer (n : Int)
  /-- A number with a fraction or an exponent, as written. -/
  | float (written : String)
  /-- A truth value. -/
  | truth (b : Bool)
  /-- A date, a time or both, as written. -/
  | moment (written : String)
  /-- A list in brackets. -/
  | array (items : List Value)
  /-- A table. -/
  | table (form : TableForm) (fields : Table String Value)
  /-- A list of tables, each under a header of its own. -/
  | rows (rows : List (Table String Value))

/-- The fields of a table. -/
abbrev Fields := Table String Value

namespace Fields

/-- The table with a value under a dotted key. Dotted keys make the tables they need and add to
tables made by dotted keys; `holds` says whether the table at hand may get a value of its own. -/
def assign (t : Fields) (holds : Bool) : List String → Value → Option Fields
  | [], _ => none
  | [key], v => if holds && !t.contains key then some (t.insert key v) else none
  | key :: rest, v =>
    match t.get? key with
    | none =>
      (assign .empty true rest v).map fun inner => t.insert key (.table .dotted inner)
    | some (.table .dotted inner) =>
      (assign inner true rest v).map fun inner => t.insert key (.table .dotted inner)
    | some (.table .passed inner) =>
      (assign inner false rest v).map fun inner => t.insert key (.table .passed inner)
    | some (.rows rows) =>
      rows.getLast?.bind fun last =>
        (assign last false rest v).map fun last =>
          t.insert key (.rows (rows.dropLast ++ [last]))
    | _ => none

/-- Changes the table that a header leads to, and makes the tables it passes through. -/
def along (t : Fields) (change : Fields → Option Fields) : List String → Option Fields
  | [] => change t
  | key :: rest =>
    match t.get? key with
    | none => (along .empty change rest).map fun inner => t.insert key (.table .passed inner)
    | some (.table .braces _) => none
    | some (.table form inner) =>
      (along inner change rest).map fun inner => t.insert key (.table form inner)
    | some (.rows rows) =>
      rows.getLast?.bind fun last =>
        (along last change rest).map fun last => t.insert key (.rows (rows.dropLast ++ [last]))
    | _ => none

/-- The table with a table under its own header. -/
def openTable (key : String) (t : Fields) : Option Fields :=
  match t.get? key with
  | none => some (t.insert key (.table .header .empty))
  | some (.table .passed inner) => some (t.insert key (.table .header inner))
  | _ => none

/-- The table with one more row in a list of tables. -/
def openRow (key : String) (t : Fields) : Option Fields :=
  match t.get? key with
  | none => some (t.insert key (.rows [.empty]))
  | some (.rows rows) => some (t.insert key (.rows (rows ++ [.empty])))
  | _ => none

end Fields

end DirectoryRights.Toml
