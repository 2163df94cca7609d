import DirectoryRights.Text.Scan

/-!
# Quoted text

Text stands between quotation marks, where a backslash begins an escape, or between apostrophes,
where every character stands for itself. Three marks open a text that may run over several lines: a
line end right after them does not count, a line end in the text reads as one line feed, and a
backslash at the end of a line swallows the white space up to the next word. Up to two marks may
stand right before the closing three.
-/

set_option autoImplicit false

namespace DirectoryRights.Toml

open Text

/-- Spaces and tabs. -/
def isSpace (c : Char) : Bool :=
  c = ' ' || c = '\t'

/-- Characters that may stand in a comment or a text: all but control characters, with the tab. -/
def isPrintable (c : Char) : Bool :=
  c = '\t' || (0x20 ≤ c.toNat && c.toNat ≠ 0x7F)

/-- Spaces and tabs, possibly none. -/
def spaces : Scan Unit := do
  let _ ← Scan.many (Scan.one isSpace)

/-- The end of a line. -/
def lineFeed : Scan Unit :=
  Scan.word "\n" <|> Scan.word "\r\n"

namespace Quoted

/-- The value of a hexadecimal digit. -/
def hexDigit? (c : Char) : Option Nat :=
  if '0' ≤ c ∧ c ≤ '9' then some (c.toNat - '0'.toNat)
  else if 'a' ≤ c ∧ c ≤ 'f' then some (c.toNat - 'a'.toNat + 10)
  else if 'A' ≤ c ∧ c ≤ 'F' then some (c.toNat - 'A'.toNat + 10)
  else none

/-- The character of a code point written with so many hexadecimal digits. -/
def codePoint (digits : Nat) : Scan Char := do
  let written ← Scan.count (Scan.one fun c => (hexDigit? c).isSome) digits
  let n := written.foldl (fun n c => 16 * n + (hexDigit? c).getD 0) 0
  if n.isValidChar then return Char.ofNat n else failure

/-- The characters that one letter after a backslash stands for. -/
def letterEscapes : List (Char × Char) :=
  [('b', '\x08'), ('t', '\t'), ('n', '\n'), ('f', '\x0c'), ('r', '\r'), ('"', '"'), ('\\', '\\')]

/-- What follows a backslash. -/
def escaped : Scan Char := do
  let c ← Scan.one fun _ => true
  match letterEscapes.find? (·.1 = c) with
  | some (_, meaning) => return meaning
  | none =>
    if c = 'u' then codePoint 4
    else if c = 'U' then codePoint 8
    else failure

/-- An escape. -/
def escape : Scan Char := do
  let _ ← Scan.char '\\'
  escaped

/-- A character that stands for itself between marks. -/
def plain (mark : Char) (escapes : Bool) : Scan Char :=
  Scan.one fun c => isPrintable c && c ≠ mark && !(escapes && c = '\\')

/-- A text on one line. -/
def short (mark : Char) (escapes : Bool) : Scan String := do
  let _ ← Scan.char mark
  let cs ← Scan.many (plain mark escapes <|> if escapes then escape else failure)
  let _ ← Scan.char mark
  return String.ofList cs

/-- A backslash at the end of a line with the white space up to the next word. -/
def swallowed : Scan Unit := do
  let _ ← Scan.char '\\'
  spaces
  lineFeed
  let _ ← Scan.many (lineFeed <|> do let _ ← Scan.one isSpace)

/-- Marks inside a text of several lines: one or two among other characters, or those before the
closing three. -/
def innerMarks (mark : Char) : Scan (List Char) := fun r =>
  match (r.chars.takeWhile (· = mark)).length with
  | 1 | 4 => some ([mark], r.drop 1)
  | 2 | 5 => some ([mark, mark], r.drop 2)
  | _ => none

/-- A piece of a text of several lines. -/
def piece (mark : Char) (escapes : Bool) : Scan (List Char) :=
  (do return [← plain mark escapes])
    <|> (do lineFeed; return ['\n'])
    <|> innerMarks mark
    <|> if escapes then (do swallowed; return []) <|> (do return [← escape]) else failure

/-- A text of several lines. -/
def long (mark : Char) (escapes : Bool) : Scan String := do
  let _ ← Scan.count (Scan.char mark) 3
  let _ ← Scan.maybe lineFeed
  let pieces ← Scan.many (piece mark escapes)
  let _ ← Scan.count (Scan.char mark) 3
  return String.ofList pieces.flatten

/-- A quoted text on one line, as it may stand for a key. -/
def line : Scan String :=
  short '"' true <|> short '\'' false

/-- A quoted text. -/
def text : Scan String :=
  long '"' true <|> long '\'' false <|> line

end Quoted

end DirectoryRights.Toml
