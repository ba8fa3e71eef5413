import Mathlib.Algebra.Order.Field.Power
import Mathlib.Data.Rat.Cast.Order
import Mathlib.Tactic.FieldSimp
import Mathlib.Tactic.Linarith
import Mathlib.Tactic.Positivity
import Mathlib.Tactic.Ring
import Questionnaire.Json.Basic
import Questionnaire.Proofs.Number.Range

/-!
# The values of JSON numbers

A number stands for a rational, `Json.Numeral.value`, however it is spelled. What the program asks
of a number is asked of its spelling, and the theorems here say what it comes to for the value:
whether it is negative, whether it is an integer (`isInteger_iff`), which word of 64 bits it is
(`isWord_iff`, `value_eq_of_toInt64?`), and whether there is a finite binary64 number next to it
(`isFinite_toBinary64`).

Integers are told by counting zeros: digits that do not vanish are divisible by as many tens as
there are zeros at their end (`pow_dvd_natOfDigits_iff`). Only spellings whose power of ten keeps
within bounds are looked at that way; beyond them a number is not taken for an integer, whatever its
value is.
-/

namespace Questionnaire.Json

/-! ### Digits -/

theorem natOfDigits_concat (ds : List Char) (c : Char) :
    natOfDigits (ds ++ [c]) = 10 * natOfDigits ds + (c.toNat - 48) := by
  rw [natOfDigits, List.foldl_append]
  rfl

namespace Numeral

theorem trailingZeros_concat (ds : List Char) (c : Char) :
    trailingZeros (ds ++ [c]) = if c = '0' then trailingZeros ds + 1 else 0 := by
  by_cases hc : c = '0' <;> simp [trailingZeros, hc]

theorem toNat_bounds_of_isDigit {c : Char} (h : c.isDigit) : 48 ≤ c.toNat ∧ c.toNat ≤ 57 := by
  simpa [Char.isDigit, UInt32.le_iff_toNat_le] using h

/-- A digit other than zero stands for a number from one to nine. -/
theorem toNat_sub_mod_ten {c : Char} (hdigit : c.isDigit) (hzero : c ≠ '0') :
    (c.toNat - 48) % 10 ≠ 0 := by
  have hne : c.toNat ≠ 48 := fun h ↦ hzero (Char.toNat_inj.1 h)
  have hbounds := toNat_bounds_of_isDigit hdigit
  omega

/-- **The zeros at the end** of digits are the tens that divide them. -/
theorem pow_dvd_natOfDigits_iff {ds : List Char} (hdigits : ∀ c ∈ ds, c.isDigit)
    (hne : natOfDigits ds ≠ 0) (k : Nat) : 10 ^ k ∣ natOfDigits ds ↔ k ≤ trailingZeros ds := by
  -- the last digit comes off, together with one ten if it is a zero
  induction ds using List.reverseRecOn generalizing k with
  | nil => exact absurd rfl hne
  | append_singleton ds c ih =>
    rw [natOfDigits_concat] at hne ⊢
    rw [trailingZeros_concat]
    cases k with
    | zero => simp
    | succ k =>
      by_cases hc : c = '0'
      · subst hc
        have hvalue : 10 * natOfDigits ds + ('0'.toNat - 48) = 10 * natOfDigits ds := rfl
        rw [hvalue] at hne ⊢
        have hprefix := ih (fun d hd ↦ hdigits d (List.mem_append_left _ hd)) (by omega) k
        rw [if_pos rfl, Nat.pow_succ', Nat.mul_dvd_mul_iff_left (by decide), hprefix]
        omega
      · have hmod := toNat_sub_mod_ten (hdigits c (by simp)) hc
        rw [if_neg hc]
        refine iff_of_false (fun hdvd ↦ ?_) (by omega)
        have hten : 10 ∣ 10 * natOfDigits ds + (c.toNat - 48) :=
          (Dvd.intro_left _ (Nat.pow_succ ..).symm).trans hdvd
        omega

/-! ### Values -/

/-- The number that a spelling stands for. -/
def value (n : Numeral) : ℚ :=
  (if n.negative then -1 else 1) * n.digits * (10 : ℚ) ^ n.power

/-- The value is an integer. -/
def IsInteger (n : Numeral) : Prop :=
  ∃ i : ℤ, n.value = i

theorem isNegative_iff {n : Numeral} : n.isNegative ↔ n.value < 0 := by
  have hpower : (0 : ℚ) < 10 ^ n.power := by positivity
  have hdigits : (0 : ℚ) ≤ n.digits := Nat.cast_nonneg _
  rw [isNegative, value, Bool.and_eq_true_iff, bne_iff_ne, mul_neg_iff]
  by_cases hsign : n.negative
  · have hcast : (n.digits : ℚ) ≠ 0 ↔ n.digits ≠ 0 := Nat.cast_ne_zero
    have hpos : 0 < (n.digits : ℚ) ↔ n.digits ≠ 0 := by
      rw [← hcast]
      exact hdigits.lt_iff_ne'
    simp [hsign, hpower, not_lt.2 hpower.le, hpos]
  · simp [hsign, not_lt.2 hpower.le]

/-- A value is an integer when its power of ten is none below one, or divides the digits. -/
theorem isInteger_value_iff {n : Numeral} :
    n.IsInteger ↔ 10 ^ (-n.power).toNat ∣ n.digits := by
  obtain ⟨s, hs, hvalue⟩ : ∃ s : ℤ, (s = 1 ∨ s = -1) ∧
      n.value = s * n.digits * (10 : ℚ) ^ n.power := by
    by_cases hsign : n.negative
    · exact ⟨-1, Or.inr rfl, by simp [value, hsign]⟩
    · exact ⟨1, Or.inl rfl, by simp [value, hsign]⟩
  rcases le_or_gt 0 n.power with hpower | hpower
  · have hzero : (-n.power).toNat = 0 := by omega
    rw [hzero]
    refine iff_of_true ⟨s * n.digits * 10 ^ n.power.toNat, ?_⟩ (by simp)
    rw [hvalue]
    nth_rewrite 1 [← Int.toNat_of_nonneg hpower]
    push_cast
    rw [zpow_natCast]
  · generalize hk : (-n.power).toNat = k
    have hquotient : n.value * 10 ^ k = s * n.digits := by
      have hexp : n.power = -(k : ℤ) := by omega
      rw [hvalue, hexp, zpow_neg, zpow_natCast]
      field_simp
    rw [← Int.natCast_dvd_natCast]
    constructor
    · rintro ⟨i, hi⟩
      rw [hi] at hquotient
      have hint : i * 10 ^ k = s * n.digits := by exact_mod_cast hquotient
      rcases hs with rfl | rfl
      · exact ⟨i, by push_cast; linarith⟩
      · exact ⟨-i, by push_cast; linarith⟩
    · rintro ⟨m, hm⟩
      refine ⟨s * m, ?_⟩
      have hpow : (10 : ℚ) ^ k ≠ 0 := by positivity
      have hcast : (n.digits : ℚ) = 10 ^ k * m := by exact_mod_cast hm
      apply mul_right_cancel₀ hpow
      rw [hquotient, hcast]
      push_cast
      ring

/-- The spelling has digits where digits stand. -/
def WellSpelled (n : Numeral) : Prop :=
  ∀ c ∈ n.whole ++ n.fraction, c.isDigit

/-- The power of ten of a spelling keeps within the bounds up to which it is formed. -/
def InBounds (n : Numeral) : Prop :=
  n.hasWordExponent ∧ n.power.natAbs ≤ maxPower

instance (n : Numeral) : Decidable n.WellSpelled :=
  List.decidableBAll (fun c : Char ↦ c.isDigit) (n.whole ++ n.fraction)

instance (n : Numeral) : Decidable n.InBounds :=
  inferInstanceAs (Decidable (n.hasWordExponent ∧ n.power.natAbs ≤ maxPower))

/-- **A number is taken for an integer** exactly when its value is one, as long as its power of ten
keeps within bounds. -/
theorem isInteger_iff {n : Numeral} (hspelled : n.WellSpelled) (hbounds : n.InBounds) :
    n.isInteger ↔ n.IsInteger := by
  rw [isInteger_value_iff, isInteger, hbounds.1, Bool.true_and, Bool.or_eq_true_iff, beq_iff_eq,
    decide_eq_true_iff]
  by_cases hzero : n.digits = 0
  · rw [hzero]
    simp
  · have hdvd := pow_dvd_natOfDigits_iff hspelled hzero (-n.power).toNat
    rw [digits, hdvd]
    have hnonzero : natOfDigits (n.whole ++ n.fraction) ≠ 0 := hzero
    simp only [hnonzero, hbounds.2, true_and, false_or]
    omega

/-! ### Words -/

/-- A number spelled without point and exponent, within the range of a word of 64 bits. -/
structure IsWord (n : Numeral) : Prop where
  plain : n.fraction = [] ∧ n.exponent = none
  inRange : Int64.minValue.toInt ≤ n.value ∧ n.value ≤ Int64.maxValue.toInt

/-- A number without point and exponent is its digits with its sign. -/
theorem value_eq_of_toInt? {n : Numeral} {i : Int} (h : n.toInt? = some i) : n.value = i := by
  rw [toInt?] at h
  obtain ⟨hplain, rfl⟩ := Option.ite_none_right_eq_some.1 h |>.imp_right Option.some.inj
  rw [Bool.and_eq_true_iff, List.isEmpty_iff, Option.isNone_iff_eq_none] at hplain
  obtain ⟨hfraction, hexponent⟩ := hplain
  have hpower : n.power = 0 := by simp [power, hfraction, hexponent]
  have hdigits : n.digits = natOfDigits n.whole := by rw [digits, hfraction, List.append_nil]
  rw [value, hpower, hdigits, zpow_zero, mul_one]
  by_cases hsign : n.negative <;> simp [hsign]

/-- **The word that a number is read as** has its value. -/
theorem value_eq_of_toInt64? {n : Numeral} {i : Int64} (h : n.toInt64? = some i) :
    n.value = i.toInt := by
  obtain ⟨m, hm, hi⟩ := Option.bind_eq_some_iff.1 h
  obtain ⟨⟨hlow, hhigh⟩, hword⟩ := Option.ite_none_right_eq_some.1 hi
  rw [value_eq_of_toInt? hm, ← Option.some.inj hword, Int64.toInt_ofInt_of_le hlow ?_]
  exact Int.lt_add_one_of_le hhigh

/-- **The numbers that are read as words** are the plain ones in range. -/
theorem isWord_iff {n : Numeral} : n.IsWord ↔ ∃ i, n.toInt64? = some i := by
  constructor
  · rintro ⟨⟨hfraction, hexponent⟩, hrange⟩
    obtain ⟨i, hi⟩ : ∃ i, n.toInt? = some i := by simp [toInt?, hfraction, hexponent]
    rw [value_eq_of_toInt? hi] at hrange
    have hword : Int64.minValue.toInt ≤ i ∧ i ≤ Int64.maxValue.toInt := by exact_mod_cast hrange
    exact ⟨.ofInt i, by rw [toInt64?, hi, Option.bind_some, if_pos hword]⟩
  · rintro ⟨i, hi⟩
    refine ⟨?_, ?_⟩
    · obtain ⟨m, hm, -⟩ := Option.bind_eq_some_iff.1 hi
      simpa using (Option.ite_none_right_eq_some.1 hm).1
    · rw [value_eq_of_toInt64? hi]
      have hrange : Int64.minValue.toInt ≤ i.toInt ∧ i.toInt ≤ Int64.maxValue.toInt :=
        ⟨i.minValue_le_toInt, i.toInt_le⟩
      exact_mod_cast hrange

instance (n : Numeral) : Decidable n.IsWord :=
  decidable_of_iff n.toInt64?.isSome (Option.isSome_iff_exists.trans isWord_iff.symm)

/-! ### Binary64 -/

/-- Every number within the range of binary64 is read as a finite one. -/
theorem isFinite_toBinary64 {n : Numeral} (h : |n.value| ≤ Binary64.largest) :
    n.toBinary64.isFinite := by
  apply Binary64.isFinite_ofDecimal
  have hmagnitude : |n.value| = n.digits * 10 ^ n.power := by
    have hsign : |(if n.negative then -1 else 1 : ℚ)| = 1 := by split <;> simp
    have hpower : (0 : ℚ) < 10 ^ n.power := by positivity
    rw [value, abs_mul, abs_mul, hsign, one_mul, abs_of_pos hpower, Nat.abs_cast]
  rwa [hmagnitude] at h

end Numeral

end Questionnaire.Json
