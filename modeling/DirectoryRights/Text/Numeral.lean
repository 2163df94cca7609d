import DirectoryRights.Text.Blank

/-!
# Numbers and truth values in settings

A decimal integer is an optional sign and at least one of the digits `0` to `9`, and has to lie in
the range of its type. The unsigned reader knows no minus sign, not even before a zero.
-/

set_option autoImplicit false

namespace DirectoryRights.Text

/-- The value of one decimal digit. -/
def digit? (c : Char) : Option Nat :=
  if '0' ≤ c ∧ c ≤ '9' then some (c.toNat - '0'.toNat) else none

/-- The value of a run of decimal digits, after those already read. -/
def digitsFrom (value : Nat) : List Char → Option Nat
  | [] => some value
  | c :: rest => (digit? c).bind fun d => digitsFrom (10 * value + d) rest

/-- The value of a text of at least one digit and nothing else. -/
def natural? : List Char → Option Nat
  | [] => none
  | cs => digitsFrom 0 cs

/-- The smallest value of a signed 64-bit number. -/
def minSigned : Int := -9223372036854775808

/-- The largest value of a signed 64-bit number. -/
def maxSigned : Int := 9223372036854775807

/-- The largest value of an unsigned 64-bit number. -/
def maxUnsigned : Nat := 18446744073709551615

/-- The value of a decimal text with an optional sign. -/
def integer? : List Char → Option Int
  | '-' :: digits => (natural? digits).map fun n => -(n : Int)
  | '+' :: digits => (natural? digits).map fun n => (n : Int)
  | digits => (natural? digits).map fun n => (n : Int)

/-- A decimal text in the signed 64-bit range. -/
def signed? (cs : List Char) : Option Int :=
  (integer? cs).filter fun n => minSigned ≤ n ∧ n ≤ maxSigned

/-- A decimal text in the unsigned 64-bit range. -/
def unsigned? (cs : List Char) : Option Nat :=
  let digits := match cs with
    | '+' :: rest => rest
    | _ => cs
  (natural? digits).filter fun n => n ≤ maxUnsigned

/-- A truth value, spelled in full and in lower case. -/
def truth? (cs : List Char) : Option Bool :=
  if cs = "true".toList then some true
  else if cs = "false".toList then some false
  else none

/-- The decimal digits of an integer, with a minus sign before a negative one. -/
def decimal (n : Int) : String :=
  match n with
  | .ofNat m => String.ofList (Nat.toDigits 10 m)
  | .negSucc m => String.ofList ('-' :: Nat.toDigits 10 (m + 1))

end DirectoryRights.Text
