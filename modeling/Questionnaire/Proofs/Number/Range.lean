import Mathlib.Algebra.Order.Field.Power
import Mathlib.Data.Nat.Log
import Mathlib.Tactic.FieldSimp
import Mathlib.Tactic.Linarith
import Mathlib.Tactic.NormNum
import Mathlib.Tactic.Positivity
import Mathlib.Tactic.Ring
import Questionnaire.Number.Binary64

/-!
# The range of binary64

A decimal whose magnitude is no larger than that of the largest finite number is rounded to a finite
number (`Binary64.isFinite_ofDecimal`). The exponent that a magnitude is read at leaves a quotient
below `2 ^ 53`, and, unless it is the least one, at least `2 ^ 52` (`exponentFor_bounds`). So in
range it is 971 at most; below that a quotient can even be rounded up to `2 ^ 53`, and at 971 it is
`2 ^ 53 - 1` at most and is rounded to no more than that.
-/

namespace Questionnaire.Binary64

/-! ### Ranks -/

theorem isFinite_ofRank {negative : Bool} {rank : Nat} (h : rank < 2047 * 0x10000000000000) :
    (ofRank negative rank).isFinite := by
  rw [ofRank, dif_pos (by omega)]
  rfl

/-- Rounding does not go beyond a natural number that the quotient does not go beyond. -/
theorem roundHalfEven_le {n d k : Nat} (h : n ≤ k * d) : roundHalfEven n d ≤ k := by
  rcases Nat.eq_zero_or_pos d with rfl | hd
  · obtain rfl : n = 0 := by omega
    simp [roundHalfEven]
  have hdivision : d * (n / d) + n % d = n := Nat.div_add_mod n d
  have hquotient : n / d ≤ k := Nat.div_le_of_le_mul (by rwa [Nat.mul_comm])
  rw [roundHalfEven]
  rcases Nat.lt_or_eq_of_le hquotient with hlt | heq
  · split
    · omega
    · split <;> omega
  · -- a quotient that is `k` leaves no remainder
    have hzero : n % d = 0 := by
      rw [heq, Nat.mul_comm] at hdivision
      omega
    simp only [hzero, Nat.mul_zero, hd, if_true]
    exact hquotient

/-! ### Exponents -/

variable {num den : Nat} {e : Int}

/-- A power with an integer exponent as a quotient of two with natural ones. -/
theorem pow_toNat_div_pow_toNat {b : ℚ} (hb : b ≠ 0) (e : Int) :
    b ^ e.toNat / b ^ (-e).toNat = b ^ e := by
  rw [← zpow_natCast, ← zpow_natCast, ← zpow_sub₀ hb, Int.toNat_sub_toNat_neg]

theorem shiftRatio_div (e : Int) :
    ((shiftRatio num den e).1 : ℚ) / (shiftRatio num den e).2 = num / den / 2 ^ e := by
  rw [← pow_toNat_div_pow_toNat two_ne_zero e]
  simp only [shiftRatio, Nat.pow_eq]
  push_cast
  rw [div_div_eq_mul_div, div_mul_eq_mul_div, div_div]

theorem shiftRatio_snd_pos (hden : 0 < den) (e : Int) : 0 < (shiftRatio num den e).2 :=
  Nat.mul_pos hden (Nat.pow_pos (by decide))

/-- A shifted quotient is compared with a natural number by the quotient itself. -/
theorem shiftRatio_le_iff (hden : 0 < den) (e : Int) (k : Nat) :
    (shiftRatio num den e).1 ≤ k * (shiftRatio num den e).2 ↔ (num / den : ℚ) ≤ k * 2 ^ e := by
  have hpos : (0 : ℚ) < (shiftRatio num den e).2 := by
    exact_mod_cast shiftRatio_snd_pos hden e
  rw [← div_le_iff₀ (by positivity), ← shiftRatio_div, div_le_iff₀ hpos]
  norm_cast

theorem shiftRatio_lt_iff (hden : 0 < den) (e : Int) (k : Nat) :
    (shiftRatio num den e).1 < k * (shiftRatio num den e).2 ↔ (num / den : ℚ) < k * 2 ^ e := by
  have hpos : (0 : ℚ) < (shiftRatio num den e).2 := by
    exact_mod_cast shiftRatio_snd_pos hden e
  rw [← div_lt_iff₀ (by positivity), ← shiftRatio_div, div_lt_iff₀ hpos]
  norm_cast

/-- A quotient lies between the powers of two that its binary lengths give. -/
theorem ratio_bounds (hnum : 0 < num) (hden : 0 < den) :
    (2 : ℚ) ^ ((num.log2 : ℤ) - den.log2 - 1) ≤ num / den ∧
      (num / den : ℚ) < 2 ^ ((num.log2 : ℤ) - den.log2 + 1) := by
  have hden' : (0 : ℚ) < den := by exact_mod_cast hden
  have hlow : (2 : ℚ) ^ num.log2 ≤ num := by exact_mod_cast Nat.log2_self_le hnum.ne'
  have hhigh : (num : ℚ) < 2 ^ (num.log2 + 1) := by exact_mod_cast Nat.lt_log2_self
  have hlowDen : (2 : ℚ) ^ den.log2 ≤ den := by exact_mod_cast Nat.log2_self_le hden.ne'
  have hhighDen : (den : ℚ) < 2 ^ (den.log2 + 1) := by exact_mod_cast Nat.lt_log2_self
  constructor
  · rw [le_div_iff₀ hden']
    calc (2 : ℚ) ^ ((num.log2 : ℤ) - den.log2 - 1) * den
        ≤ 2 ^ ((num.log2 : ℤ) - den.log2 - 1) * 2 ^ (den.log2 + 1) := by gcongr
      _ = 2 ^ num.log2 := by
        rw [← zpow_natCast, ← zpow_natCast, ← zpow_add₀ two_ne_zero]
        congr 1
        omega
      _ ≤ num := hlow
  · rw [div_lt_iff₀ hden']
    calc (num : ℚ) < 2 ^ (num.log2 + 1) := hhigh
      _ = 2 ^ ((num.log2 : ℤ) - den.log2 + 1) * 2 ^ den.log2 := by
        rw [← zpow_natCast, ← zpow_natCast, ← zpow_add₀ two_ne_zero]
        congr 1
        omega
      _ ≤ 2 ^ ((num.log2 : ℤ) - den.log2 + 1) * den := by gcongr

/-- **The exponent of a quotient** leaves 53 bits of it, or fewer if it is the least exponent. -/
theorem exponentFor_bounds (hnum : 0 < num) (hden : 0 < den) :
    -1074 ≤ exponentFor num den ∧ (num / den : ℚ) < 2 ^ 53 * 2 ^ exponentFor num den ∧
      (exponentFor num den = -1074 ∨ 2 ^ 52 * 2 ^ exponentFor num den ≤ (num / den : ℚ)) := by
  obtain ⟨hlow, hhigh⟩ := ratio_bounds hnum hden
  -- the exponent by the binary lengths is right or one too large
  obtain ⟨e, he, hbelow, habove⟩ : ∃ e : ℤ, exponentFor num den = max e (-1074) ∧
      (num / den : ℚ) < 2 ^ 53 * 2 ^ e ∧ 2 ^ 52 * 2 ^ e ≤ (num / den : ℚ) := by
    set e₀ : ℤ := (num.log2 : ℤ) - den.log2 - 52 with he₀
    have hif : (shiftRatio num den e₀).1 < 0x10000000000000 * (shiftRatio num den e₀).2 ↔
        (num / den : ℚ) < (0x10000000000000 : ℕ) * 2 ^ e₀ := shiftRatio_lt_iff hden e₀ _
    by_cases hsmall : (num / den : ℚ) < (0x10000000000000 : ℕ) * 2 ^ e₀
    · refine ⟨e₀ - 1, ?_, ?_, ?_⟩
      · rw [exponentFor]
        simp only [← he₀, hif.2 hsmall, if_true]
      · refine hsmall.trans_eq ?_
        rw [zpow_sub_one₀ two_ne_zero]
        norm_num
        ring
      · refine le_of_eq_of_le ?_ hlow
        rw [← zpow_natCast, ← zpow_add₀ two_ne_zero]
        congr 1
        push_cast
        omega
    · refine ⟨e₀, ?_, ?_, ?_⟩
      · rw [exponentFor]
        simp only [← he₀, mt hif.1 hsmall, if_false]
      · refine hhigh.trans_eq ?_
        rw [← zpow_natCast, ← zpow_add₀ two_ne_zero]
        congr 1
        push_cast
        omega
      · exact_mod_cast not_lt.1 hsmall
  rw [he]
  refine ⟨le_max_right _ _, hbelow.trans_le ?_, ?_⟩
  · gcongr
    · exact one_le_two
    · exact le_max_left _ _
  · rcases le_total e (-1074) with hle | hle
    · exact Or.inl (max_eq_right hle)
    · rw [max_eq_left hle]
      exact Or.inr habove

/-! ### Quotients and decimals -/

/-- The largest finite magnitude. -/
def largest : ℚ :=
  (2 ^ 53 - 1) * 2 ^ 971

theorem largest_lt : largest < 2 ^ 1024 := by
  have hpower : (2 : ℚ) ^ 1024 = 2 ^ 53 * 2 ^ 971 := by rw [← pow_add]
  rw [largest, hpower]
  exact mul_lt_mul_of_pos_right (by norm_num) (by positivity)

/-- In range, the exponent is at most that of the largest finite number. -/
theorem exponentFor_le (hnum : 0 < num) (hden : 0 < den) (h : (num / den : ℚ) ≤ largest) :
    exponentFor num den ≤ 971 := by
  obtain ⟨-, -, hlow⟩ := exponentFor_bounds hnum hden
  by_contra hlarge
  have hlow : 2 ^ 52 * 2 ^ exponentFor num den ≤ (num / den : ℚ) := hlow.resolve_left (by omega)
  have hpower : (2 : ℚ) ^ 972 ≤ 2 ^ exponentFor num den := by
    rw [← zpow_natCast]
    exact zpow_le_zpow_right₀ one_le_two (by push_cast; omega)
  refine absurd ?_ (lt_irrefl ((2 : ℚ) ^ 1024))
  calc (2 : ℚ) ^ 1024 = 2 ^ 52 * 2 ^ 972 := by rw [← pow_add]
    _ ≤ 2 ^ 52 * 2 ^ exponentFor num den := by gcongr
    _ ≤ num / den := hlow
    _ ≤ largest := h
    _ < 2 ^ 1024 := largest_lt

/-- **A quotient in range** is rounded to a finite number. -/
theorem isFinite_ofRatio {negative : Bool} (hden : 0 < den) (h : (num / den : ℚ) ≤ largest) :
    (ofRatio negative num den).isFinite := by
  rw [ofRatio]
  rcases Nat.eq_zero_or_pos num with rfl | hnum
  · rfl
  rw [if_neg hnum.ne']
  obtain ⟨hleast, hbelow, -⟩ := exponentFor_bounds hnum hden
  have hmost := exponentFor_le hnum hden h
  generalize exponentFor num den = e at hleast hbelow hmost
  suffices hrank : (e + 1074).toNat * 0x10000000000000 +
      roundHalfEven (shiftRatio num den e).1 (shiftRatio num den e).2 < 2047 * 0x10000000000000 from
    isFinite_ofRank hrank
  rcases Int.lt_or_eq_of_le hmost with hlt | rfl
  · have hround : roundHalfEven (shiftRatio num den e).1 (shiftRatio num den e).2 ≤ 2 ^ 53 :=
      roundHalfEven_le ((shiftRatio_le_iff hden e _).2 (by exact_mod_cast hbelow.le))
    omega
  · have hround : roundHalfEven (shiftRatio num den 971).1 (shiftRatio num den 971).2 ≤
        2 ^ 53 - 1 := by
      refine roundHalfEven_le ((shiftRatio_le_iff hden 971 _).2 (h.trans_eq ?_))
      rw [largest, ← zpow_natCast (2 : ℚ) 971]
      norm_num
    omega

/-- A natural number has no more digits than it takes. -/
theorem pow_digitCount_le {digits : Nat} (h : digits ≠ 0) :
    10 ^ (digitCount digits - 1) ≤ digits := by
  rcases Nat.eq_zero_or_pos (digitCount digits - 1) with hzero | hpos
  · rw [hzero]
    omega
  · by_contra hlt
    have hfew := (Nat.length_toDigits_le_iff (b := 10) (by decide) hpos).2 (not_le.1 hlt)
    rw [← digitCount] at hfew
    omega

/-- A decimal of more than 310 places is out of range. -/
theorem largest_lt_of_digitCount {digits : Nat} {power : Int} (hdigits : digits ≠ 0)
    (hsize : 310 < (digitCount digits : ℤ) + power) : largest < digits * 10 ^ power := by
  have hbound : (2 : ℚ) ^ 1024 < 10 ^ 310 := by
    have hnat : 2 ^ 1024 < 10 ^ 310 := by decide +kernel
    exact_mod_cast hnat
  have hcount : 0 < digitCount digits := Nat.length_toDigits_pos
  have hplaces : (10 : ℚ) ^ (digitCount digits - 1) ≤ digits := by
    exact_mod_cast pow_digitCount_le hdigits
  calc largest < 2 ^ 1024 := largest_lt
    _ < 10 ^ 310 := hbound
    _ ≤ 10 ^ (((digitCount digits - 1 : ℕ) : ℤ) + power) := by
      rw [← zpow_natCast]
      exact zpow_le_zpow_right₀ (by norm_num) (by push_cast; omega)
    _ = 10 ^ (digitCount digits - 1) * 10 ^ power := by
      rw [zpow_add₀ (by norm_num), zpow_natCast]
    _ ≤ digits * 10 ^ power := by gcongr

theorem decimal_div (digits : Nat) (power : Int) :
    ((digits * Nat.pow 10 power.toNat : ℕ) : ℚ) / (Nat.pow 10 (-power).toNat : ℕ) =
      digits * 10 ^ power := by
  rw [← pow_toNat_div_pow_toNat (by norm_num) power]
  simp only [Nat.pow_eq]
  push_cast
  rw [mul_div_assoc]

/-- **A decimal in range** is rounded to a finite number. -/
theorem isFinite_ofDecimal {negative : Bool} {digits : Nat} {power : Int}
    (h : (digits * 10 ^ power : ℚ) ≤ largest) : (ofDecimal negative digits power).isFinite := by
  rw [ofDecimal]
  split
  · rfl
  · next hzero =>
    obtain ⟨hdigits, -⟩ := not_or.1 hzero
    split
    · next hsize => exact absurd h (not_le.2 (largest_lt_of_digitCount hdigits hsize))
    · refine isFinite_ofRatio (Nat.pow_pos (by decide)) ?_
      rwa [decimal_div]

end Questionnaire.Binary64
