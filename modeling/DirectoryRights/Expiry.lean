import DirectoryRights.Error
import DirectoryRights.Text.Numeral

/-!
# The expiry policy

A share of user rights may be given an end, in milliseconds since the epoch, with zero for never. A
longest lifetime bounds the end; a longest lifetime of zero is no bound for shares without an end.
Times are signed 64-bit numbers, and a sum that leaves their range stops at its border.
-/

set_option autoImplicit false

namespace DirectoryRights.Expiry

/-- The nearest number in the signed 64-bit range. -/
def saturate (n : Int) : Int :=
  max Text.minSigned (min Text.maxSigned n)

/-- The latest end of a share made now. -/
def latest (maxLifetime now : Int) : Int :=
  saturate (now + maxLifetime)

/-- Whether an end conflicts with the policy. -/
def conflicts (maxLifetime now expiry : Int) : Bool :=
  latest maxLifetime now < expiry || (expiry = 0 && 0 < maxLifetime)

/-- The end of a share for which an end may be asked. -/
def decide (asked : Option String) (maxLifetime now : Int) : Except Error Int :=
  match asked with
  | none => .ok (if maxLifetime = 0 then 0 else latest maxLifetime now)
  | some text =>
    match Text.signed? (Text.trimList text.toList) with
    | none => .error (.expiryShape text)
    | some expiry =>
      if conflicts maxLifetime now expiry then .error .expiryConflict else .ok expiry

end DirectoryRights.Expiry
