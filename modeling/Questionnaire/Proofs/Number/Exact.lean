import Questionnaire.Proofs.Json.Numerals
import Questionnaire.Proofs.Json.Spelling

/-!
# Exact decimals

A decimal whose value is that of a finite binary64 number is read as this number
(`Binary64.ofDecimal_eq_finite`): the exponent it is read at is that of the number, and nothing is
left to round. Every finite number is such a decimal, since a half is five tenths; so there is a
spelling that reads back as the number (`Json.Numeral.exists_spelling`).
-/

namespace Questionnaire

namespace Binary64

variable {scale : Fin 2047} {fraction : Fin 0x10000000000000} {negative : Bool} {num den : Nat}

/-- The magnitude of a finite number. -/
def magnitude (scale : Fin 2047) (fraction : Fin 0x10000000000000) : ℚ :=
  significand scale fraction * 2 ^ exponent scale

theorem significand_lt (scale : Fin 2047) (fraction : Fin 0x10000000000000) :
    significand scale fraction < 2 ^ 53 := by
  have hfraction := fraction.isLt
  rw [significand]
  split <;> omega

theorem le_significand (h : scale.val ≠ 0) (fraction : Fin 0x10000000000000) :
    2 ^ 52 ≤ significand scale fraction := by
  rw [significand, if_neg h]
  omega

theorem exponent_bounds (scale : Fin 2047) : -1074 ≤ exponent scale ∧ exponent scale ≤ 971 := by
  have hscale := scale.isLt
  rw [exponent]
  omega

/-- Magnitudes are in range. -/
theorem magnitude_le_largest (scale : Fin 2047) (fraction : Fin 0x10000000000000) :
    magnitude scale fraction ≤ largest := by
  have hsignificand : (significand scale fraction : ℚ) + 1 ≤ 2 ^ 53 := by
    exact_mod_cast significand_lt scale fraction
  have hpower : (2 : ℚ) ^ exponent scale ≤ 2 ^ 971 := by
    rw [← zpow_natCast]
    exact zpow_le_zpow_right₀ one_le_two (exponent_bounds scale).2
  rw [magnitude, largest]
  exact mul_le_mul (by linarith) hpower (by positivity) (by norm_num)

/-- A magnitude that is not zero is not below the least one. -/
theorem le_magnitude (h : significand scale fraction ≠ 0) :
    (2 : ℚ) ^ (-1074 : ℤ) ≤ magnitude scale fraction := by
  have hone : (1 : ℚ) ≤ significand scale fraction := by
    exact_mod_cast Nat.one_le_iff_ne_zero.2 h
  calc (2 : ℚ) ^ (-1074 : ℤ) ≤ 2 ^ exponent scale :=
        zpow_le_zpow_right₀ one_le_two (exponent_bounds scale).1
    _ ≤ significand scale fraction * 2 ^ exponent scale :=
      le_mul_of_one_le_left (by positivity) hone

/-- **The exponent of a number** is the one that its magnitude is read at. -/
theorem exponentFor_eq_exponent (hnum : 0 < num) (hden : 0 < den)
    (h : (num / den : ℚ) = magnitude scale fraction) : exponentFor num den = exponent scale := by
  obtain ⟨hleast, hbelow, habove⟩ := exponentFor_bounds hnum hden
  have hexponent := exponent_bounds scale
  have hsignificand : (significand scale fraction : ℚ) < 2 ^ 53 := by
    exact_mod_cast significand_lt scale fraction
  rw [h, magnitude] at hbelow habove
  generalize exponentFor num den = e at hleast hbelow habove
  -- a significand below `2 ^ 53` keeps `e` down
  have hle : e ≤ exponent scale := by
    rcases habove with rfl | habove
    · exact hexponent.1
    · have hlt : (2 : ℚ) ^ 52 * 2 ^ e < 2 ^ 53 * 2 ^ exponent scale :=
        habove.trans_lt (mul_lt_mul_of_pos_right hsignificand (by positivity))
      rw [← zpow_natCast, ← zpow_natCast, ← zpow_add₀ two_ne_zero, ← zpow_add₀ two_ne_zero,
        zpow_lt_zpow_iff_right₀ one_lt_two] at hlt
      push_cast at hlt
      omega
  refine le_antisymm hle ?_
  by_cases hscale : scale.val = 0
  · -- the least scale has the least exponent
    rw [exponent, hscale]
    exact hleast
  · have hlow : (2 : ℚ) ^ 52 ≤ significand scale fraction := by
      exact_mod_cast le_significand hscale fraction
    have hlt : (2 : ℚ) ^ 52 * 2 ^ exponent scale < 2 ^ 53 * 2 ^ e :=
      (mul_le_mul_of_nonneg_right hlow (by positivity)).trans_lt hbelow
    rw [← zpow_natCast, ← zpow_natCast, ← zpow_add₀ two_ne_zero, ← zpow_add₀ two_ne_zero,
      zpow_lt_zpow_iff_right₀ one_lt_two] at hlt
    push_cast at hlt
    omega

/-- A quotient without remainder is not rounded. -/
theorem roundHalfEven_mul (m : Nat) {d : Nat} (hd : 0 < d) : roundHalfEven (m * d) d = m := by
  simp [roundHalfEven, Nat.mul_div_cancel _ hd, hd]

/-- The rank of a number, from its exponent and significand. -/
theorem rank_eq (scale : Fin 2047) (fraction : Fin 0x10000000000000) :
    (exponent scale + 1074).toNat * 0x10000000000000 + significand scale fraction =
      rank scale fraction := by
  rw [exponent, significand, rank]
  split <;> omega

/-- **A quotient that is a magnitude** is read as the number that has it. -/
theorem ofRatio_eq_finite (hnum : 0 < num) (hden : 0 < den)
    (h : (num / den : ℚ) = magnitude scale fraction) :
    ofRatio negative num den = finite negative scale fraction := by
  have hexact : (shiftRatio num den (exponent scale)).1 =
      significand scale fraction * (shiftRatio num den (exponent scale)).2 := by
    have hpos : ((shiftRatio num den (exponent scale)).2 : ℚ) ≠ 0 := by
      exact_mod_cast (shiftRatio_snd_pos hden _).ne'
    have hquotient : ((shiftRatio num den (exponent scale)).1 : ℚ) /
        (shiftRatio num den (exponent scale)).2 = significand scale fraction := by
      rw [shiftRatio_div, h, magnitude, mul_div_assoc, div_self (by positivity), mul_one]
    rw [div_eq_iff hpos] at hquotient
    exact_mod_cast hquotient
  rw [ofRatio, if_neg hnum.ne']
  simp only [exponentFor_eq_exponent hnum hden h, hexact]
  rw [roundHalfEven_mul _ (shiftRatio_snd_pos hden _), rank_eq, ofRank_rank]

theorem finite_eq_zero (h : significand scale fraction = 0) :
    finite negative scale fraction = zero negative := by
  have hscale : scale.val = 0 := by
    by_contra hne
    have hlow := le_significand hne fraction
    omega
  rw [significand, if_pos hscale] at h
  rw [zero, show scale = ⟨0, by decide⟩ from Fin.ext hscale,
    show fraction = ⟨0, by decide⟩ from Fin.ext h]

/-- A magnitude that is not zero is not below the range of decimals that are looked at. -/
theorem neg_le_of_magnitude {digits : Nat} {power : Int}
    (hsignificand : significand scale fraction ≠ 0)
    (h : (digits * 10 ^ power : ℚ) = magnitude scale fraction) :
    -400 ≤ (digitCount digits : ℤ) + power := by
  by_contra hsmall
  have hbound : (10 : ℚ) ^ (-401 : ℤ) < 2 ^ (-1074 : ℤ) := by
    have hnat : 2 ^ 1074 < 10 ^ 401 := by decide +kernel
    have hcast : (2 : ℚ) ^ 1074 < 10 ^ 401 := by exact_mod_cast hnat
    rw [zpow_neg, zpow_neg]
    exact (inv_lt_inv₀ (by positivity) (by positivity)).2 (by exact_mod_cast hcast)
  have hdigits : (digits : ℚ) ≤ 10 ^ digitCount digits := by
    have hlt : digits < 10 ^ digitCount digits :=
      (Nat.length_toDigits_le_iff (b := 10) (by decide) Nat.length_toDigits_pos).1 le_rfl
    exact_mod_cast hlt.le
  refine absurd ?_ (lt_irrefl ((2 : ℚ) ^ (-1074 : ℤ)))
  calc (2 : ℚ) ^ (-1074 : ℤ) ≤ magnitude scale fraction := le_magnitude hsignificand
    _ = digits * 10 ^ power := h.symm
    _ ≤ 10 ^ digitCount digits * 10 ^ power := by gcongr
    _ = 10 ^ ((digitCount digits : ℤ) + power) := by
      rw [zpow_add₀ (by norm_num), zpow_natCast]
    _ ≤ 10 ^ (-401 : ℤ) := zpow_le_zpow_right₀ (by norm_num) (by omega)
    _ < 2 ^ (-1074 : ℤ) := hbound

/-- **A decimal that is a magnitude** is read as the number that has it. -/
theorem ofDecimal_eq_finite {digits : Nat} {power : Int}
    (h : (digits * 10 ^ power : ℚ) = magnitude scale fraction) :
    ofDecimal negative digits power = finite negative scale fraction := by
  have hzero : digits = 0 ↔ significand scale fraction = 0 := by
    have hten : (10 : ℚ) ^ power ≠ 0 := by positivity
    have htwo : (2 : ℚ) ^ exponent scale ≠ 0 := by positivity
    rw [magnitude] at h
    constructor
    · rintro rfl
      simpa [htwo] using h.symm
    · intro hnone
      rw [hnone] at h
      simpa [hten] using h
  rw [ofDecimal]
  by_cases hdigits : digits = 0
  · rw [if_pos (Or.inl hdigits), finite_eq_zero (hzero.1 hdigits)]
  · have hsmall := neg_le_of_magnitude (mt hzero.2 hdigits) h
    have hlarge : ¬ 310 < (digitCount digits : ℤ) + power := fun hsize ↦
      absurd (magnitude_le_largest scale fraction)
        (not_le.2 (h ▸ largest_lt_of_digitCount hdigits hsize))
    rw [if_neg (not_or.2 ⟨hdigits, by omega⟩), if_neg hlarge]
    refine ofRatio_eq_finite ?_ (Nat.pow_pos (by decide)) (by rw [decimal_div, h])
    exact Nat.mul_pos (Nat.pos_of_ne_zero hdigits) (Nat.pow_pos (by decide))

end Binary64

namespace Json.Numeral

/-- The spelling of a finite number in full: its digits, without a point, and a power of ten where
it is no integer. -/
def inFull (negative : Bool) (scale : Fin 2047) (fraction : Fin 0x10000000000000) : Numeral :=
  let e := Binary64.exponent scale
  { negative
    whole := Nat.toDigits 10
      (Binary64.significand scale fraction * 2 ^ e.toNat * 5 ^ (-e).toNat)
    exponent :=
      if e < 0 then some ⟨'e', some '-', Nat.toDigits 10 (-e).toNat⟩ else none }

theorem grammatical_inFull (negative : Bool) (scale : Fin 2047)
    (fraction : Fin 0x10000000000000) : (inFull negative scale fraction).Grammatical where
  whole := digits_toDigits _
  leading := toDigits_leading _
  fraction := fun _ hc ↦ absurd hc List.not_mem_nil
  exponent := by
    intro e he
    simp only [inFull] at he
    split at he
    · cases he
      exact ⟨by simp, by simp, digits_toDigits _⟩
    · cases he

theorem toBinary64_inFull (negative : Bool) (scale : Fin 2047) (fraction : Fin 0x10000000000000) :
    (inFull negative scale fraction).toBinary64 = .finite negative scale fraction := by
  have hdigits : (inFull negative scale fraction).digits =
      Binary64.significand scale fraction * 2 ^ (Binary64.exponent scale).toNat *
        5 ^ (-Binary64.exponent scale).toNat := by
    rw [digits, inFull, List.append_nil, natOfDigits_toDigits]
  have hpower : (inFull negative scale fraction).power =
      -((-Binary64.exponent scale).toNat : ℤ) := by
    rw [power, inFull]
    by_cases hneg : Binary64.exponent scale < 0
    · simp [hneg, Exponent.value, natOfDigits_toDigits]
    · have hnone : (-Binary64.exponent scale).toNat = 0 := by omega
      simp [hneg, hnone]
  refine Binary64.ofDecimal_eq_finite ?_
  rw [hdigits, hpower, Binary64.magnitude, zpow_neg, zpow_natCast,
    ← Binary64.pow_toNat_div_pow_toNat two_ne_zero]
  generalize (Binary64.exponent scale).toNat = up
  generalize (-Binary64.exponent scale).toNat = down
  -- a ten is two times five, and the fives are those of the digits
  have hten : (10 : ℚ) ^ down = 2 ^ down * 5 ^ down := by
    rw [← mul_pow]
    norm_num
  rw [hten]
  push_cast
  field_simp

/-- **Every finite number has a spelling** that reads back. -/
theorem exists_spelling {x : Binary64} (h : x.isFinite) :
    ∃ n : Numeral, n.Grammatical ∧ n.toBinary64 = x := by
  cases x with
  | finite negative scale fraction =>
    exact ⟨_, grammatical_inFull negative scale fraction, toBinary64_inFull negative scale fraction⟩
  | infinite | nan => exact absurd h (by simp [Binary64.isFinite])

end Json.Numeral

end Questionnaire
