import DirectoryRights.Text.Split
import DirectoryRights.Text.Fold

/-!
# Universally unique identifiers

An identifier is thirty-two hexadecimal digits. Its canonical text writes them in lower case in
groups of 8, 4, 4, 4 and 12. Read are the canonical grouping in any case, alone, in braces or after
`urn:uuid:`, and the thirty-two digits without hyphens.
-/

set_option autoImplicit false

namespace DirectoryRights

/-- A 128-bit identifier, as its hexadecimal digits, most significant first. -/
structure Uuid where
  /-- The digits of the identifier. -/
  digits : List (Fin 16)
  /-- There are thirty-two of them. -/
  length_digits : digits.length = 32
deriving DecidableEq

namespace Uuid

/-- The identifier with the given digits, if they are thirty-two. -/
def ofDigits? (ds : List (Fin 16)) : Option Uuid :=
  if h : ds.length = 32 then some ⟨ds, h⟩ else none

/-- The last hexadecimal digit of a number. -/
def lastDigit (n : Nat) : Fin 16 :=
  ⟨n % 16, Nat.mod_lt n (by decide)⟩

/-- A hexadecimal digit in lower case. -/
def hexChar (d : Fin 16) : Char :=
  if d < 10 then Char.ofNat ('0'.toNat + d) else Char.ofNat ('a'.toNat + (d - 10))

/-- The value of a hexadecimal digit in either case. -/
def hexValue? (c : Char) : Option (Fin 16) :=
  if '0' ≤ c ∧ c ≤ '9' then some (lastDigit (c.toNat - '0'.toNat))
  else if 'a' ≤ c ∧ c ≤ 'f' then some (lastDigit (c.toNat - 'a'.toNat + 10))
  else if 'A' ≤ c ∧ c ≤ 'F' then some (lastDigit (c.toNat - 'A'.toNat + 10))
  else none

/-- The sizes of the groups between the hyphens. -/
def groupSizes : List Nat := [8, 4, 4, 4, 12]

/-- Groups of the given sizes with hyphens between them. -/
def hyphenate : List Nat → List Char → List Char
  | [], cs => cs
  | [_], cs => cs
  | size :: sizes, cs => cs.take size ++ '-' :: hyphenate sizes (cs.drop size)

/-- The canonical text of an identifier. -/
def text (u : Uuid) : String :=
  String.ofList (hyphenate groupSizes (u.digits.map hexChar))

/-- Thirty-two digits without hyphens. -/
def ofPlain? (cs : List Char) : Option Uuid :=
  (cs.mapM hexValue?).bind ofDigits?

/-- Digits in groups of 8, 4, 4, 4 and 12. -/
def ofHyphenated? (cs : List Char) : Option Uuid :=
  let groups := Text.splitOn '-' cs
  if groups.map List.length = groupSizes then ofPlain? groups.flatten else none

/-- The text between a pair of braces. -/
def unbrace? : List Char → Option (List Char)
  | '\x7b' :: rest =>
    match rest.getLast? with
    | some '\x7d' => some rest.dropLast
    | _ => none
  | _ => none

/-- The text after the name of the identifier scheme, in any case. -/
def afterScheme? (cs : List Char) : Option (List Char) :=
  if (cs.take 9).map Char.toLower = "urn:uuid:".toList then some (cs.drop 9) else none

/-- The identifier a text stands for. -/
def parseList? (cs : List Char) : Option Uuid :=
  if cs.length = 32 then ofPlain? cs
  else
    match ofHyphenated? cs with
    | some u => some u
    | none =>
      match unbrace? cs with
      | some inner => ofHyphenated? inner
      | none => (afterScheme? cs).bind ofHyphenated?

/-- The identifier a text stands for, in any of the accepted forms. -/
def parse? (s : String) : Option Uuid :=
  parseList? s.toList

end Uuid

end DirectoryRights
