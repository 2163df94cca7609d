import Mathlib.Data.List.TakeWhile
import Mathlib.Data.Nat.Digits.Defs
import DirectoryRights.Expiry
import DirectoryRights.Settings

/-!
# The ends of shares

The expiry policy is kept in signed 64-bit numbers, with sums that stop at the border of their
range. It is nevertheless the policy that speaks of unbounded integers: an end that is asked for is
itself in the range, so that a sum beyond the border is compared with it as the true sum would be.
An end is asked for by a text, and which texts ask for one is said without the reader of numbers: a
decimal number in the range, with white space around it.
-/

set_option autoImplicit false

namespace DirectoryRights

namespace Text

/-- The text is one of at least one decimal digit and nothing else. -/
def AllDigits (cs : List Char) : Prop :=
  cs ≠ [] ∧ ∀ c ∈ cs, '0' ≤ c ∧ c ≤ '9'

/-- The number that decimal digits stand for, the last of them for the ones. -/
def positional (cs : List Char) : Nat :=
  Nat.ofDigits 10 (cs.map fun c => c.toNat - '0'.toNat).reverse

/-- The characters of a decimal number, which may have a sign. -/
inductive Decimal : List Char → Int → Prop where
  /-- There is no sign. -/
  | plain {cs : List Char} (h : AllDigits cs) : Decimal cs (positional cs)
  /-- There is a plus sign. -/
  | plus {cs : List Char} (h : AllDigits cs) : Decimal ('+' :: cs) (positional cs)
  /-- There is a minus sign. -/
  | minus {cs : List Char} (h : AllDigits cs) : Decimal ('-' :: cs) (-(positional cs))

/-- Without the white space around it the text is a decimal number in the signed 64-bit range. -/
def Spells (text : String) (n : Int) : Prop :=
  ∃ before core after, text.toList = before ++ core ++ after ∧
    (∀ c ∈ before, isBlank c = true) ∧ (∀ c ∈ after, isBlank c = true) ∧
    Decimal core n ∧ minSigned ≤ n ∧ n ≤ maxSigned

variable {cs : List Char}

/-- The first digit counts as often as the digits behind it leave places. -/
theorem positional_cons (c : Char) (cs : List Char) :
    positional (c :: cs) = (c.toNat - '0'.toNat) * 10 ^ cs.length + positional cs := by
  unfold positional
  rw [List.map_cons, List.reverse_cons, Nat.ofDigits_append, Nat.ofDigits_singleton,
    List.length_reverse, List.length_map]
  ring

/-- Exactly the digits are read as digits, with the distance from zero as their value. -/
theorem digit?_eq_some {c : Char} {d : Nat} :
    digit? c = some d ↔ ('0' ≤ c ∧ c ≤ '9') ∧ c.toNat - '0'.toNat = d := by
  unfold digit?
  by_cases hc : '0' ≤ c ∧ c ≤ '9'
  · rw [if_pos hc, Option.some.injEq, and_iff_right hc]
  · rw [if_neg hc]
    exact iff_of_false nofun fun h => hc h.1

/-- Digits are read from the left, each after those already read. -/
theorem digitsFrom_eq_some {value n : Nat} :
    digitsFrom value cs = some n ↔
      (∀ c ∈ cs, '0' ≤ c ∧ c ≤ '9') ∧ value * 10 ^ cs.length + positional cs = n := by
  induction cs generalizing value with
  | nil => simp [digitsFrom, positional]
  | cons c rest ih =>
    have hvalue : ∀ d, (10 * value + d) * 10 ^ rest.length + positional rest =
        value * 10 ^ (rest.length + 1) + (d * 10 ^ rest.length + positional rest) := by
      intro d
      ring
    rw [digitsFrom, Option.bind_eq_some_iff, List.forall_mem_cons, List.length_cons,
      positional_cons]
    constructor
    · rintro ⟨d, hd, hrest⟩
      obtain ⟨hc, rfl⟩ := digit?_eq_some.mp hd
      obtain ⟨hdigits, hn⟩ := ih.mp hrest
      exact ⟨⟨hc, hdigits⟩, (hvalue _).symm.trans hn⟩
    · rintro ⟨⟨hc, hdigits⟩, hn⟩
      exact ⟨_, digit?_eq_some.mpr ⟨hc, rfl⟩, ih.mpr ⟨hdigits, (hvalue _).trans hn⟩⟩

/-- What is read as a natural number are digits and nothing else, with the number that they stand
for. -/
theorem natural?_eq_some {n : Nat} :
    natural? cs = some n ↔ AllDigits cs ∧ positional cs = n := by
  unfold AllDigits
  cases cs with
  | nil => simp [natural?]
  | cons c rest =>
    rw [natural?, digitsFrom_eq_some, Nat.zero_mul, Nat.zero_add]
    · simp only [ne_eq, reduceCtorEq, not_false_eq_true, true_and]
    · exact List.cons_ne_nil c rest

/-- A sign is no digit. -/
theorem not_allDigits_sign {sign : Char} (h : sign = '-' ∨ sign = '+') :
    ¬ AllDigits (sign :: cs) := by
  intro hdigits
  have hsign := hdigits.2 sign List.mem_cons_self
  rcases h with rfl | rfl
  · exact absurd hsign (by decide)
  · exact absurd hsign (by decide)

/-- The digits after a sign are read, and the sign is put on what they stand for. -/
theorem map_natural?_eq_some {sign : Int → Int} {n : Int} :
    Option.map sign (do let m ← natural? cs; pure (m : Int)) = some n ↔
      AllDigits cs ∧ sign (positional cs) = n := by
  rw [Option.map_eq_some_iff]
  constructor
  · rintro ⟨_, hbind, rfl⟩
    obtain ⟨m, hm, ⟨⟩⟩ := Option.bind_eq_some_iff.mp hbind
    obtain ⟨hdigits, rfl⟩ := natural?_eq_some.mp hm
    exact ⟨hdigits, rfl⟩
  · rintro ⟨hdigits, rfl⟩
    exact ⟨_, Option.bind_eq_some_iff.mpr ⟨_, natural?_eq_some.mpr ⟨hdigits, rfl⟩, rfl⟩, rfl⟩

/-- Exactly the decimal numbers are read as integers. -/
theorem integer?_eq_some {n : Int} : integer? cs = some n ↔ Decimal cs n := by
  constructor
  · intro h
    unfold integer? at h
    split at h
    · obtain ⟨hdigits, rfl⟩ := map_natural?_eq_some.mp h
      exact .minus hdigits
    · obtain ⟨hdigits, rfl⟩ := map_natural?_eq_some.mp h
      exact .plus hdigits
    · obtain ⟨hdigits, rfl⟩ := map_natural?_eq_some.mp h
      exact .plain hdigits
  · rintro (hdigits | hdigits | hdigits)
    · unfold integer?
      split
      · exact absurd hdigits (not_allDigits_sign (.inl rfl))
      · exact absurd hdigits (not_allDigits_sign (.inr rfl))
      · exact map_natural?_eq_some.mpr ⟨hdigits, rfl⟩
    · exact map_natural?_eq_some.mpr ⟨hdigits, rfl⟩
    · exact map_natural?_eq_some.mpr ⟨hdigits, rfl⟩

/-- Exactly the decimal numbers in the signed 64-bit range are read as signed numbers. -/
theorem signed?_eq_some {n : Int} :
    signed? cs = some n ↔ Decimal cs n ∧ minSigned ≤ n ∧ n ≤ maxSigned := by
  unfold signed?
  rw [Option.filter_eq_some_iff, integer?_eq_some, decide_eq_true_iff]

/-- A decimal number has at least one character. -/
theorem Decimal.ne_nil {n : Int} (h : Decimal cs n) : cs ≠ [] := by
  cases h with
  | plain hdigits => exact hdigits.1
  | plus _ => exact List.cons_ne_nil _ _
  | minus _ => exact List.cons_ne_nil _ _

/-! ## White space around a number -/

/-- A digit is no white space. -/
theorem isBlank_of_digit {c : Char} (h : '0' ≤ c ∧ c ≤ '9') : isBlank c = false := by
  have hlow : 48 ≤ c.toNat := h.1
  have hhigh : c.toNat ≤ 57 := h.2
  unfold isBlank
  simp only [Bool.or_eq_false_iff, Bool.and_eq_false_iff, decide_eq_false_iff_not]
  omega

/-- There is no white space in a decimal number. -/
theorem Decimal.not_isBlank {n : Int} (h : Decimal cs n) : ∀ c ∈ cs, isBlank c = false := by
  cases h with
  | plain hdigits => exact fun c hc => isBlank_of_digit (hdigits.2 c hc)
  | plus hdigits =>
    exact List.forall_mem_cons.mpr ⟨by decide, fun c hc => isBlank_of_digit (hdigits.2 c hc)⟩
  | minus hdigits =>
    exact List.forall_mem_cons.mpr ⟨by decide, fun c hc => isBlank_of_digit (hdigits.2 c hc)⟩

/-- Trimming takes away nothing but white space at both ends. -/
theorem exists_trimList (cs : List Char) : ∃ before after, cs = before ++ trimList cs ++ after ∧
    (∀ c ∈ before, isBlank c = true) ∧ ∀ c ∈ after, isBlank c = true := by
  let rest := (cs.dropWhile isBlank).reverse
  refine ⟨cs.takeWhile isBlank, (rest.takeWhile isBlank).reverse, ?_, ?_, ?_⟩
  · have hrest : trimList cs ++ (rest.takeWhile isBlank).reverse = cs.dropWhile isBlank := by
      unfold trimList
      rw [← List.reverse_append, List.takeWhile_append_dropWhile]
      exact List.reverse_reverse _
    rw [List.append_assoc, hrest, List.takeWhile_append_dropWhile]
  · exact fun c hc => List.mem_takeWhile_imp hc
  · exact fun c hc => List.mem_takeWhile_imp (List.mem_reverse.mp hc)

/-- White space before a text without any is dropped, and the text stays. -/
theorem dropWhile_blanks {blanks core : List Char} (hblanks : ∀ c ∈ blanks, isBlank c = true)
    (hne : core ≠ []) (hcore : ∀ c ∈ core, isBlank c = false) (tail : List Char) :
    (blanks ++ (core ++ tail)).dropWhile isBlank = core ++ tail := by
  obtain ⟨first, rest, rfl⟩ := List.exists_cons_of_ne_nil hne
  rw [List.dropWhile_append_of_pos hblanks, List.cons_append, List.dropWhile_cons_of_neg]
  rw [hcore first List.mem_cons_self]
  exact Bool.false_ne_true

/-- What has no white space in it is left when the white space around it is trimmed. -/
theorem trimList_of_blanks {before core after : List Char}
    (hbefore : ∀ c ∈ before, isBlank c = true) (hafter : ∀ c ∈ after, isBlank c = true)
    (hne : core ≠ []) (hcore : ∀ c ∈ core, isBlank c = false) :
    trimList (before ++ core ++ after) = core := by
  have hback : (after.reverse ++ (core.reverse ++ [])).dropWhile isBlank = core.reverse ++ [] :=
    dropWhile_blanks (fun c hc => hafter c (List.mem_reverse.mp hc))
      (List.reverse_ne_nil_iff.mpr hne) (fun c hc => hcore c (List.mem_reverse.mp hc)) []
  rw [List.append_nil] at hback
  unfold trimList
  rw [List.append_assoc, dropWhile_blanks hbefore hne hcore, List.reverse_append, hback,
    List.reverse_reverse]

/-- A text spells a number exactly if the reader finds this number in the trimmed text. -/
theorem spells_iff {text : String} {n : Int} :
    Spells text n ↔ signed? (trimList text.toList) = some n := by
  rw [signed?_eq_some]
  constructor
  · rintro ⟨before, core, after, htext, hbefore, hafter, hcore, hrange⟩
    rw [htext, trimList_of_blanks hbefore hafter hcore.ne_nil hcore.not_isBlank]
    exact ⟨hcore, hrange⟩
  · rintro ⟨hcore, hrange⟩
    obtain ⟨before, after, htext, hbefore, hafter⟩ := exists_trimList text.toList
    exact ⟨before, _, after, htext, hbefore, hafter, hcore, hrange⟩

end Text

/-- Settings that can be used have a longest lifetime. -/
theorem Settings.maxLifetime_nonneg {s : Settings} (h : s.objection? = none) :
    0 ≤ s.maxLifetime := by
  unfold objection? at h
  by_contra hnegative
  rw [if_pos (Int.not_le.mp hnegative)] at h
  split at h <;> cases h

namespace Expiry

/-- Over unbounded integers the policy permits an end that is not beyond the longest lifetime, and
no end at all only where there is no longest lifetime. -/
def Permits (maxLifetime now ending : Int) : Prop :=
  ending ≤ now + maxLifetime ∧ ¬ (ending = 0 ∧ 0 < maxLifetime)

instance (maxLifetime now ending : Int) : Decidable (Permits maxLifetime now ending) :=
  inferInstanceAs (Decidable (_ ∧ _))

variable {maxLifetime now : Int}

/-- The latest end is the true sum, but at most the largest number of the range. -/
theorem latest_eq (hlifetime : 0 ≤ maxLifetime) (hnow : Text.minSigned ≤ now) :
    latest maxLifetime now = min (now + maxLifetime) Text.maxSigned := by
  unfold latest saturate
  rw [min_comm, max_eq_right]
  have hrange : Text.minSigned ≤ Text.maxSigned := by decide
  exact le_min (by omega) hrange

/-- For an end in the range the sum that stops at the border tells what the true sum tells. -/
theorem conflicts_eq_false (hlifetime : 0 ≤ maxLifetime) (hnow : Text.minSigned ≤ now)
    {ending : Int} (hending : ending ≤ Text.maxSigned) :
    conflicts maxLifetime now ending = false ↔ Permits maxLifetime now ending := by
  have hlatest : ¬ latest maxLifetime now < ending ↔ ending ≤ now + maxLifetime := by
    rw [latest_eq hlifetime hnow, Int.not_lt, le_min_iff, and_iff_left hending]
  unfold conflicts Permits
  rw [Bool.or_eq_false_iff, decide_eq_false_iff_not, hlatest, ← Bool.decide_and,
    decide_eq_false_iff_not]

/-- Whether an end that a text asks for is granted is what the policy says of it. -/
theorem decide_of_spells (hlifetime : 0 ≤ maxLifetime) (hnow : Text.minSigned ≤ now)
    {text : String} {ending : Int} (h : Text.Spells text ending) :
    (Permits maxLifetime now ending → decide (some text) maxLifetime now = .ok ending) ∧
      (¬ Permits maxLifetime now ending →
        decide (some text) maxLifetime now = .error .expiryConflict) := by
  have hread : Text.signed? (Text.trimList text.toList) = some ending := Text.spells_iff.mp h
  have hrange : ending ≤ Text.maxSigned := (Text.signed?_eq_some.mp hread).2.2
  unfold decide
  simp only [hread]
  rw [← conflicts_eq_false hlifetime hnow hrange]
  constructor
  · intro hpermits
    rw [hpermits]
    rfl
  · intro hconflicts
    rw [if_pos (Bool.not_eq_false _ ▸ hconflicts)]

/-- A text that asks for no end is refused for its shape. -/
theorem decide_of_not_spells {text : String} (h : ∀ ending, ¬ Text.Spells text ending) :
    decide (some text) maxLifetime now = .error (.expiryShape text) := by
  cases hread : Text.signed? (Text.trimList text.toList) with
  | none =>
    unfold decide
    simp only [hread]
  | some ending => exact absurd (Text.spells_iff.mpr hread) (h ending)

/-- A longer longest lifetime permits what a shorter one permits. -/
theorem Permits.longer {ending longer : Int} (h : Permits maxLifetime now ending)
    (hpositive : 0 < maxLifetime) (hlonger : maxLifetime ≤ longer) :
    Permits longer now ending := by
  obtain ⟨hbound, hnever⟩ := h
  exact ⟨by omega, fun ⟨hzero, _⟩ => hnever ⟨hzero, hpositive⟩⟩

/-- An end that is granted is the one that the text asks for, and the policy permits it. -/
theorem exists_of_decide_eq_ok (hlifetime : 0 ≤ maxLifetime) (hnow : Text.minSigned ≤ now)
    {text : String} {ending : Int} (h : decide (some text) maxLifetime now = .ok ending) :
    Text.Spells text ending ∧ Permits maxLifetime now ending := by
  by_cases hspells : ∃ asked, Text.Spells text asked
  · obtain ⟨asked, hasked⟩ := hspells
    obtain ⟨haccepts, hrefuses⟩ := decide_of_spells hlifetime hnow hasked
    by_cases hpermits : Permits maxLifetime now asked
    · rw [haccepts hpermits] at h
      obtain rfl : asked = ending := Except.ok.inj h
      exact ⟨hasked, hpermits⟩
    · rw [hrefuses hpermits] at h
      cases h
  · rw [decide_of_not_spells fun asked hasked => hspells ⟨asked, hasked⟩] at h
    cases h

/-- The policy in 64-bit numbers is the policy over unbounded integers. Without an end that is asked
for there is none where there is no longest lifetime, and otherwise the share ends after the longest
lifetime, or at the border of the range. A text that is no number is an invalid request, and a
number is the end exactly if the policy permits it, and a denied permission otherwise. What is
accepted under one longest lifetime is accepted under every longer one. -/
theorem decide_exact (hlifetime : 0 ≤ maxLifetime) (hnow : Text.minSigned ≤ now) :
    decide none maxLifetime now =
        .ok (if maxLifetime = 0 then 0 else min (now + maxLifetime) Text.maxSigned) ∧
      (∀ text, (∀ ending, ¬ Text.Spells text ending) →
        decide (some text) maxLifetime now = .error (.expiryShape text) ∧
          (Error.expiryShape text).kind = .invalidRequest) ∧
      (∀ text ending, Text.Spells text ending →
        (decide (some text) maxLifetime now = .ok ending ↔ Permits maxLifetime now ending) ∧
        (decide (some text) maxLifetime now = .error .expiryConflict ↔
          ¬ Permits maxLifetime now ending)) ∧
      Error.expiryConflict.kind = .permissionDenied .grantExpiryPolicy ∧
      ∀ longer, 0 < maxLifetime → maxLifetime ≤ longer → ∀ text ending,
        decide (some text) maxLifetime now = .ok ending →
          decide (some text) longer now = .ok ending := by
  refine ⟨?_, fun text h => ⟨decide_of_not_spells h, rfl⟩, fun text ending h => ?_, rfl, ?_⟩
  · unfold decide
    rw [latest_eq hlifetime hnow]
  · obtain ⟨haccepts, hrefuses⟩ := decide_of_spells hlifetime hnow h
    by_cases hpermits : Permits maxLifetime now ending
    · rw [haccepts hpermits]
      exact ⟨iff_of_true rfl hpermits, iff_of_false nofun (not_not_intro hpermits)⟩
    · rw [hrefuses hpermits]
      exact ⟨iff_of_false nofun hpermits, iff_of_true rfl hpermits⟩
  · intro longer hpositive hlonger text ending h
    obtain ⟨hspells, hpermits⟩ := exists_of_decide_eq_ok hlifetime hnow h
    exact (decide_of_spells (hlifetime.trans hlonger) hnow hspells).1
      (hpermits.longer hpositive hlonger)

/-- At the end of the range a share of a day ends at the border, and so may one that asks for this.
A share that asks for no end, or for the number after the border, is not made. -/
theorem decide_exact_sample :
    decide none 86400000 (Text.maxSigned - 1) = .ok Text.maxSigned ∧
      decide (some " +9223372036854775807\n") 86400000 (Text.maxSigned - 1) =
        .ok Text.maxSigned ∧
      decide (some "-0") 86400000 (Text.maxSigned - 1) = .error .expiryConflict ∧
      decide (some "9223372036854775808") 86400000 (Text.maxSigned - 1) =
        .error (.expiryShape "9223372036854775808") := by
  let day : Settings := { Settings.defaults with maxLifetime := 86400000 }
  have hday : day.objection? = none := by decide
  obtain ⟨habsent, hshape, hnumber, -, -⟩ :=
    @decide_exact day.maxLifetime (Text.maxSigned - 1) (Settings.maxLifetime_nonneg hday)
      (by decide)
  have hborder : Text.Spells " +9223372036854775807\n" Text.maxSigned :=
    Text.spells_iff.mpr (by decide)
  have hzero : Text.Spells "-0" 0 := Text.spells_iff.mpr (by decide)
  have hbeyond : ∀ ending, ¬ Text.Spells "9223372036854775808" ending := by
    intro ending hspells
    have hnone : Text.signed? (Text.trimList "9223372036854775808".toList) = none := by decide
    exact absurd (hnone.symm.trans (Text.spells_iff.mp hspells)) nofun
  exact ⟨habsent, (hnumber _ _ hborder).1.mpr (by decide), (hnumber _ _ hzero).2.mpr (by decide),
    (hshape _ hbeyond).1⟩

end Expiry

end DirectoryRights
