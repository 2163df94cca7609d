import DirectoryRights.Toml.Fault
import DirectoryRights.Toml.Line

/-!
# Documents

A document is read line by line. Pairs go into the table whose header stands last before them. A
mark of the byte order may stand at the beginning.
-/

set_option autoImplicit false

namespace DirectoryRights.Toml

open Text

/-- A document whose lines have been read in part. -/
structure Draft where
  /-- The values so far. -/
  root : Fields
  /-- The table that the next pairs belong to. -/
  current : List String

namespace Draft

/-- The document before its first line. -/
def empty : Draft := ⟨.empty, []⟩

/-- Opens what a header names. -/
def enter (d : Draft) (path : List String) (opened : String → Fields → Option Fields) :
    Except Fault Draft :=
  match path.getLast?.bind fun key => d.root.along (opened key) path.dropLast with
  | some root => .ok ⟨root, path⟩
  | none => .error (.redefined path)

/-- The document after one more line. -/
def add (d : Draft) : Line → Except Fault Draft
  | .blank => .ok d
  | .pair key v =>
    match d.root.along (fun t => t.assign true key v) d.current with
    | some root => .ok { d with root }
    | none => .error (.redefined key)
  | .table path => d.enter path Fields.openTable
  | .row path => d.enter path Fields.openRow

end Draft

/-- A text without the mark of the byte order at its beginning. -/
def withoutMark : List Char → List Char
  | '\ufeff' :: rest => rest
  | cs => cs

/-- The number of the line that begins where `rest` is left of a text. -/
def lineOf (text rest : Rest) : Nat :=
  (text.upTo rest).count '\n' + 1

/-- The values of a document. -/
def parse (text : String) : Except Fault Fields :=
  let start := Rest.ofList (withoutMark text.toList)
  let (lines, rest) := Scan.repeated Line.scan start
  if rest.chars = [] then (lines.foldlM Draft.add .empty).map (·.root)
  else .error (.malformed (lineOf start rest))

end DirectoryRights.Toml
