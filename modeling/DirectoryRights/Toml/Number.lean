import DirectoryRights.Text.Scan
import DirectoryRights.Text.Numeral

/-!
# Numbers

Whole numbers are written in decimal with an optional sign and without leading zeros, or after `0x`,
`0o` or `0b` in another base, and lie in the signed 64-bit range. A number with a fraction or an
exponent is a double; one that is too large for a double is refused, unless it is negative. Single
underscores may stand between digits.
-/

set_option autoImplicit false

namespace DirectoryRights.Toml.Number

open Text

/-- The value of a digit in a base up to sixteen. -/
def digitIn? (base : Nat) (c : Char) : Option Nat :=
  let value :=
    if '0' ≤ c ∧ c ≤ '9' then c.toNat - '0'.toNat
    else if 'a' ≤ c ∧ c ≤ 'f' then c.toNat - 'a'.toNat + 10
    else if 'A' ≤ c ∧ c ≤ 'F' then c.toNat - 'A'.toNat + 10
    else base
  if value < base then some value else none

/-- One digit. -/
def digit (base : Nat) : Scan Nat := do
  let c ← Scan.one fun c => (digitIn? base c).isSome
  return (digitIn? base c).getD 0

/-- One more digit of a number. -/
def nextDigit (base : Nat) : Scan Nat :=
  digit base <|> do
    let _ ← Scan.char '_'
    digit base

/-- At least one digit. -/
def digits (base : Nat) : Scan (List Nat) := do
  let first ← digit base
  let more ← Scan.many (nextDigit base)
  return first :: more

/-- The number that digits stand for. -/
def ofDigits (base : Nat) (ds : List Nat) : Nat :=
  ds.foldl (fun n d => base * n + d) 0

/-- A sign, if there is one; whether it is a minus. -/
def sign : Scan Bool := do
  let c ← Scan.maybe (Scan.char '+' <|> Scan.char '-')
  return c = some '-'

/-- Decimal digits without leading zeros. -/
def wholePart : Scan (List Nat) := do
  let first ← digit 10
  if first = 0 then return [0]
  let more ← Scan.many (nextDigit 10)
  return first :: more

/-- A whole number after the mark of its base. -/
def inBase (mark : String) (base : Nat) : Scan Int := do
  Scan.word mark
  let ds ← digits base
  return ofDigits base ds

/-- A whole number in decimal. -/
def decimal : Scan Int := do
  let negative ← sign
  let n := ofDigits 10 (← wholePart)
  return if negative then -(n : Int) else n

/-- A whole number. -/
def integer : Scan Int :=
  Scan.check (inBase "0x" 16 <|> inBase "0o" 8 <|> inBase "0b" 2 <|> decimal) fun n =>
    minSigned ≤ n ∧ n ≤ maxSigned

/-- The digits behind a point. -/
def fraction : Scan (List Nat) := do
  let _ ← Scan.char '.'
  digits 10

/-- An exponent. -/
def exponent : Scan Int := do
  let _ ← Scan.char 'e' <|> Scan.char 'E'
  let negative ← sign
  let n := ofDigits 10 (← digits 10)
  return if negative then -(n : Int) else n

/-- The smallest number that a double no longer holds: half a step above the largest double. -/
def doubleBound : Nat :=
  (1 <<< 1024) - (1 <<< 970)

/-- Whether `ds` times a power of ten is too large for a double. -/
def overflows (ds : List Nat) (power : Int) : Bool :=
  let significant := ds.dropWhile (· = 0)
  let magnitude := power + significant.length
  if significant = [] ∨ magnitude ≤ 308 then false
  else if 310 ≤ magnitude then true
  else
    let n := ofDigits 10 significant
    if 0 ≤ power then doubleBound ≤ n * Nat.pow 10 power.toNat
    else doubleBound * Nat.pow 10 (-power).toNat ≤ n

/-- A number with a fraction or an exponent. -/
def double : Scan Unit := do
  let negative ← sign
  let whole ← wholePart
  let (behind, power) ←
    (do return ([], ← exponent))
      <|> (do return (← fraction, (← Scan.maybe exponent).getD 0))
  if !negative && overflows (whole ++ behind) (power - behind.length) then failure

/-- A number that is infinite or none at all. -/
def special : Scan Unit := do
  let _ ← sign
  Scan.word "inf" <|> Scan.word "nan"

/-- A number that is not written as a whole one, as it is written. -/
def float : Scan String := do
  return String.ofList (← Scan.taken (double <|> special))

end DirectoryRights.Toml.Number
