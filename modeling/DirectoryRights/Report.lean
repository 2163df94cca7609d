/-!
# Reports

A report is a small tree of named values, written as a JSON document over several lines: each field
stands on a line of its own, two blanks further in than what encloses it.
-/

set_option autoImplicit false

namespace DirectoryRights

/-- A tree of named values. -/
inductive Report where
  /-- No value. -/
  | nothing
  /-- Yes or no. -/
  | truth (value : Bool)
  /-- A text. -/
  | text (value : String)
  /-- Values with names, in the order in which they are written. -/
  | record (fields : List (String × Report))

namespace Report

/-- A text, or no value. -/
def optional : Option String → Report
  | some value => text value
  | none => nothing

/-- The two hexadecimal digits of a number below 256. -/
def hexPair (n : Nat) : List Char :=
  [Nat.digitChar (n / 16), Nat.digitChar (n % 16)]

/-- A character as it stands in a quoted text. Quotes, backslashes and control characters are
escaped, some of them by a letter. -/
def escaped : Char → List Char
  | '"' => ['\\', '"']
  | '\\' => ['\\', '\\']
  | '\n' => ['\\', 'n']
  | '\r' => ['\\', 'r']
  | '\t' => ['\\', 't']
  | '\x08' => ['\\', 'b']
  | '\x0c' => ['\\', 'f']
  | c => if c.toNat < 0x20 then ['\\', 'u', '0', '0'] ++ hexPair c.toNat else [c]

/-- A text in quotes. -/
def quoted (value : String) : String :=
  String.ofList ('"' :: value.toList.flatMap escaped ++ ['"'])

mutual

/-- The written form of a report whose lines start behind a margin. -/
def write : Report → String → String
  | nothing, _ => "null"
  | truth true, _ => "true"
  | truth false, _ => "false"
  | text value, _ => quoted value
  | record [], _ => "\x7b\x7d"
  | record (field :: fields), margin =>
    "\x7b" ++ writeField field (margin ++ "  ") ++ writeMore fields (margin ++ "  ")
      ++ "\n" ++ margin ++ "\x7d"

/-- The fields after the first. -/
def writeMore : List (String × Report) → String → String
  | [], _ => ""
  | field :: fields, margin => "," ++ writeField field margin ++ writeMore fields margin

/-- One field. -/
def writeField : String × Report → String → String
  | (name, value), margin => "\n" ++ margin ++ quoted name ++ ": " ++ write value margin

end

/-- The written form of a report. -/
def document (r : Report) : String :=
  r.write ""

end Report

end DirectoryRights
