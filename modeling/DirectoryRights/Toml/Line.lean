import DirectoryRights.Toml.Moment
import DirectoryRights.Toml.Number
import DirectoryRights.Toml.Quoted
import DirectoryRights.Toml.Value

/-!
# Lines of a document

A line gives a key a value, opens a table or a row of tables, or says nothing. A value may run over
several lines where it is in brackets or quoted. Lists and tables in braces may stand in each other
less than eighty deep, and a dotted key has less than eighty parts.
-/

set_option autoImplicit false

namespace DirectoryRights.Toml

open Text

/-- The bound that the depth of values and the parts of keys stay below. -/
def bound : Nat := 80

/-- The text of a comment. -/
def comment : Scan Unit := do
  let _ ← Scan.char '#'
  let _ ← Scan.many (Scan.one isPrintable)

/-- White space, line ends and comments, as they stand between the items of a list. -/
def filler : Scan Unit := do
  let _ ← Scan.many ((do let _ ← Scan.one isSpace) <|> lineFeed <|> comment)

/-- The rest of a line after what it says. -/
def lineEnd : Scan Unit := do
  spaces
  let _ ← Scan.maybe comment
  lineFeed <|> Scan.finish

/-- Characters of a key without quotes. -/
def isBare (c : Char) : Bool :=
  c.isAlphanum || c = '_' || c = '-'

/-- One part of a key. -/
def keyPart : Scan String := do
  spaces
  let part ← Quoted.line <|> do return String.ofList (← Scan.atLeastOne (Scan.one isBare))
  spaces
  return part

/-- A key. -/
def key : Scan (List String) := do
  let first ← keyPart
  let more ← Scan.many (do let _ ← Scan.char '.'; keyPart)
  if more.length + 1 < bound then return first :: more else failure

/-- The items of a list after its opening bracket. -/
def listItems (value : Scan Value) : Scan Value := do
  let item := do filler; let v ← value; filler; return v
  let items ← Scan.separated item (Scan.char ',')
  if items ≠ [] then let _ ← Scan.maybe (Scan.char ',')
  filler
  let _ ← Scan.char ']'
  return .array items

/-- A key and its value. -/
def pair (value : Scan Value) : Scan (List String × Value) := do
  let key ← key
  let _ ← Scan.char '='
  spaces
  return (key, ← value)

/-- The pairs of a table in braces after its opening brace. -/
def tablePairs (value : Scan Value) : Scan Value := do
  let pairs ← Scan.separated (do let p ← pair value; spaces; return p) (Scan.char ',')
  spaces
  let _ ← Scan.char '}'
  match pairs.foldlM (fun (t : Fields) (key, v) => t.assign true key v) .empty with
  | some fields => return .table .braces fields
  | none => failure

/-- A value that holds no others. -/
def simpleValue : Scan Value :=
  (do return .text (← Quoted.text))
    <|> (do Scan.word "true"; return .truth true)
    <|> (do Scan.word "false"; return .truth false)
    <|> (do return .moment (← Moment.moment))
    <|> (do return .float (← Number.float))
    <|> (do return .integer (← Number.integer))

/-- A value in which lists and tables stand at most so deep. -/
def value : Nat → Scan Value
  | 0 => simpleValue
  | depth + 1 =>
    (do let _ ← Scan.char '['; listItems (value depth))
      <|> (do let _ ← Scan.char '\x7b'; tablePairs (value depth))
      <|> simpleValue

/-- What a line says. -/
inductive Line where
  /-- Nothing. -/
  | blank
  /-- A key has a value. -/
  | pair (key : List String) (value : Value)
  /-- The table of this name begins. -/
  | table (path : List String)
  /-- The next row in the list of this name begins. -/
  | row (path : List String)

/-- What stands in a line before its end. -/
def Line.content : Scan Line :=
  (do Scan.word "[["; let path ← key; Scan.word "]]"; return .row path)
    <|> (do let _ ← Scan.char '['; let path ← key; let _ ← Scan.char ']'; return .table path)
    <|> (do let (key, v) ← Toml.pair (Toml.value (bound - 1)); return .pair key v)

/-- One line of a document, which takes at least one character. -/
def Line.scan : Scan Line := do
  spaces
  let content ← Scan.maybe Line.content
  lineEnd
  return content.getD .blank

end DirectoryRights.Toml
