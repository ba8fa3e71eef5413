import Questionnaire.Form.Expr
import Questionnaire.Proofs.Number.Shortest
import Questionnaire.Proofs.Text.Quoting

/-!
# Decimals written out

The digits that a decimal is written out in, before and after the point, stand for its value
(`DecimalDigits.natOfDigits_written`), and the value of the shortest decimal of a number rounds to
this number (`Binary64.roundsTo_value_shortest`). The text of a decimal literal always has exactly
one point, so it can be divided there again: literals of two numbers that are finite and not
negative have different texts (`Literal.decimalText_inj`).
-/

namespace Questionnaire

namespace Json

theorem natOfDigits_append (ds es : List Char) :
    natOfDigits (ds ++ es) = natOfDigits ds * 10 ^ es.length + natOfDigits es := by
  induction es using List.reverseRecOn with
  | nil => simp [show natOfDigits [] = 0 from rfl]
  | append_singleton es c ih =>
    rw [← List.append_assoc, natOfDigits_concat, natOfDigits_concat, ih, List.length_append]
    simp only [List.length_singleton]
    ring

theorem natOfDigits_zeros (n : ℕ) : natOfDigits (List.replicate n '0') = 0 := by
  induction n with
  | zero => rfl
  | succ n ih =>
    rw [List.replicate_succ', natOfDigits_concat, ih]
    rfl

end Json

namespace DecimalDigits

open Json

/-- The value of a decimal. -/
def value (d : DecimalDigits) : ℚ :=
  natOfDigits d.digits * 10 ^ (d.point - d.digits.length)

/-- The digits after the point where there is always a point: a single zero when there are none. -/
def decimals (d : DecimalDigits) : List Char :=
  if d.fraction.isEmpty then ['0'] else d.fraction

/-- A point moved over the digits, or over zeros after them, multiplies by a power of ten. -/
theorem value_mul_pow (d : DecimalDigits) {n m : ℕ} (h : d.point + n = d.digits.length + m) :
    d.value * 10 ^ n = natOfDigits d.digits * 10 ^ m := by
  rw [value, mul_assoc, ← zpow_natCast, ← zpow_natCast, ← zpow_add₀ (by norm_num)]
  congr 2
  omega

theorem natOfDigits_whole_fraction (d : DecimalDigits) :
    (natOfDigits (d.whole ++ d.fraction) : ℚ) = d.value * 10 ^ d.fraction.length := by
  rcases le_or_gt d.point 0 with hpoint | hpoint
  · rw [whole, if_pos hpoint, natOfDigits_append, show natOfDigits ['0'] = 0 from rfl, zero_mul,
      zero_add, fraction]
    split
    · next hnone =>
      rw [value, List.isEmpty_iff.1 hnone]
      simp [show natOfDigits [] = 0 from rfl]
    · rw [natOfDigits_append, natOfDigits_zeros, zero_mul, zero_add,
        value_mul_pow d (m := 0) (by simp; omega), pow_zero, mul_one]
  · have hfraction : d.fraction = d.digits.drop d.point.toNat := by
      rw [fraction]
      split
      · next hnone => rw [List.isEmpty_iff.1 hnone, List.drop_nil]
      · rw [if_neg hpoint.not_ge]
    have hwhole : d.whole = d.digits.take d.point.toNat ++
        List.replicate (d.point.toNat - d.digits.length) '0' := by
      rw [whole, if_neg hpoint.not_ge]
    -- the digits, and zeros up to the point
    have hsplit : d.whole ++ d.fraction =
        d.digits ++ List.replicate (d.point.toNat - d.digits.length) '0' := by
      rw [hwhole, hfraction]
      rcases le_total d.digits.length d.point.toNat with hle | hle
      · rw [List.take_of_length_le hle, List.drop_of_length_le hle, List.append_nil]
      · rw [Nat.sub_eq_zero_of_le hle, List.replicate_zero, List.append_nil, List.append_nil,
          List.take_append_drop]
    have hlength : d.fraction.length = d.digits.length - d.point.toNat := by
      rw [hfraction, List.length_drop]
    rw [hsplit, natOfDigits_append, natOfDigits_zeros, add_zero, List.length_replicate, hlength,
      value_mul_pow d (m := d.point.toNat - d.digits.length) (by omega)]
    push_cast
    rfl

/-- **The digits written out** stand for the value of a decimal. -/
theorem natOfDigits_written (d : DecimalDigits) :
    (natOfDigits (d.whole ++ d.decimals) : ℚ) = d.value * 10 ^ d.decimals.length := by
  have hvalue := natOfDigits_whole_fraction d
  rw [decimals]
  split
  · next hnone =>
    rw [List.isEmpty_iff.1 hnone, List.append_nil, List.length_nil, pow_zero, mul_one] at hvalue
    rw [natOfDigits_append, show natOfDigits ['0'] = 0 from rfl, add_zero, ← hvalue]
    push_cast
    rfl
  · exact hvalue

/-- The digits before and after the point. -/
theorem isDigit_written {d : DecimalDigits} (h : ∀ c ∈ d.digits, c.isDigit) :
    ∀ c ∈ d.whole ++ d.decimals, c.isDigit := by
  have hzeros : ∀ n, ∀ c ∈ List.replicate n '0', c.isDigit := by
    intro n c hc
    rw [List.eq_of_mem_replicate hc]
    rfl
  have hwhole : ∀ c ∈ d.whole, c.isDigit := by
    rw [whole]
    split
    · exact hzeros 1
    · exact List.forall_mem_append.2 ⟨fun c hc ↦ h c (List.mem_of_mem_take hc), hzeros _⟩
  have hfraction : ∀ c ∈ d.fraction, c.isDigit := by
    rw [fraction]
    split
    · exact fun c hc ↦ absurd hc List.not_mem_nil
    · split
      · exact List.forall_mem_append.2 ⟨hzeros _, h⟩
      · exact fun c hc ↦ h c (List.mem_of_mem_drop hc)
  refine List.forall_mem_append.2 ⟨hwhole, ?_⟩
  rw [decimals]
  split
  · exact hzeros 1
  · exact hfraction

end DecimalDigits

namespace Binary64

theorem dropTrailingZeros_append (ds : List Char) :
    ∃ n, ds = dropTrailingZeros ds ++ List.replicate n '0' := by
  induction ds using List.reverseRecOn with
  | nil => exact ⟨0, rfl⟩
  | append_singleton ds c ih =>
    by_cases hc : c = '0'
    · obtain ⟨n, hn⟩ := ih
      have hdrop : dropTrailingZeros (ds ++ [c]) = dropTrailingZeros ds := by
        simp [dropTrailingZeros, hc]
      refine ⟨n + 1, ?_⟩
      rw [hdrop, List.replicate_succ', ← List.append_assoc, ← hn, hc]
    · exact ⟨0, by simp [dropTrailingZeros, hc]⟩

variable {scale scale' : Fin 2047} {fraction fraction' : Fin 0x10000000000000}

/-- **The value of the shortest decimal** rounds to the magnitude it was found for. -/
theorem roundsTo_value_shortest (scale : Fin 2047) (fraction : Fin 0x10000000000000) :
    RoundsTo scale fraction (shortest scale fraction).value := by
  by_cases hzero : significand scale fraction = 0
  · have hpos := quarter_pos scale
    have hvalue : (shortest scale fraction).value = 0 := by
      rw [shortest, if_pos hzero, DecimalDigits.value]
      exact mul_eq_zero_of_left rfl _
    have hlow : lowQuarters scale fraction = 0 := by
      rw [lowQuarters, hzero, ite_self]
    rw [hvalue]
    refine ⟨?_, by positivity, fun hodd ↦ ?_⟩
    · rw [hlow, Nat.cast_zero, zero_mul]
    · omega
  · obtain ⟨a, k, hround, heq⟩ := shortest_eq hzero
    obtain ⟨n, hn⟩ := dropTrailingZeros_append (Nat.toDigits 10 a)
    have hdigits : a = natOfDigits (dropTrailingZeros (Nat.toDigits 10 a)) * 10 ^ n := by
      have hvalue := congrArg natOfDigits hn
      rwa [Json.natOfDigits_append, Json.natOfDigits_zeros, Json.natOfDigits_toDigits,
        List.length_replicate] at hvalue
    have hlength := congrArg List.length hn
    rw [List.length_append, List.length_replicate] at hlength
    have hvalue : (shortest scale fraction).value = a * 10 ^ k := by
      have hcast : (a : ℚ) =
          natOfDigits (dropTrailingZeros (Nat.toDigits 10 a)) * 10 ^ n := by
        exact_mod_cast hdigits
      rw [heq, hcast, mul_assoc, ← zpow_natCast, ← zpow_add₀ (by norm_num)]
      show _ * (10 : ℚ) ^ ((Nat.toDigits 10 a).length + k -
        (dropTrailingZeros (Nat.toDigits 10 a)).length) = _
      congr 2
      omega
    rwa [hvalue]

/-- The characters of a finite number that is not negative: digits only. -/
theorem isDigit_shortest (scale : Fin 2047) (fraction : Fin 0x10000000000000) :
    ∀ c ∈ (shortest scale fraction).digits, c.isDigit := by
  intro c hc
  by_cases hzero : significand scale fraction = 0
  · rw [shortest, if_pos hzero] at hc
    exact absurd hc List.not_mem_nil
  · obtain ⟨a, k, -, heq⟩ := shortest_eq hzero
    obtain ⟨n, hn⟩ := dropTrailingZeros_append (Nat.toDigits 10 a)
    rw [heq] at hc
    have hmem : c ∈ Nat.toDigits 10 a := by
      rw [hn]
      exact List.mem_append_left _ hc
    exact Nat.isDigit_of_mem_toDigits (by decide) (by decide) hmem

end Binary64

namespace Literal

open DecimalDigits

variable {scale scale' : Fin 2047} {fraction fraction' : Fin 0x10000000000000}

/-- The text of a decimal that is finite and not negative: digits, a point and digits. -/
theorem toList_decimalText (scale : Fin 2047) (fraction : Fin 0x10000000000000) :
    (decimalText (.finite false scale fraction)).toList =
      (Binary64.shortest scale fraction).whole ++ '.' ::
        (Binary64.shortest scale fraction).decimals := by
  have hdigit := isDigit_written (Binary64.isDigit_shortest scale fraction)
  have hchars : (Binary64.positional (.finite false scale fraction)).toList =
      (Binary64.shortest scale fraction).positional := by
    simp [Binary64.positional, Binary64.signText]
  generalize Binary64.shortest scale fraction = d at hdigit hchars ⊢
  cases hfraction : d.fraction with
  | nil =>
    rw [DecimalDigits.positional, hfraction] at hchars
    have hpoint : ¬ d.whole.contains '.' = true := by
      rw [List.contains_iff_mem]
      exact fun hmem ↦ absurd (hdigit '.' (List.mem_append_left _ hmem)) (by decide)
    rw [decimalText, hchars, if_neg hpoint, String.toList_append, hchars, decimals, hfraction]
    rfl
  | cons c cs =>
    rw [DecimalDigits.positional, hfraction] at hchars
    have hpoint : (d.whole ++ '.' :: c :: cs).contains '.' = true := by
      rw [List.contains_iff_mem]
      exact List.mem_append_right _ List.mem_cons_self
    rw [decimalText, hchars, if_pos hpoint, hchars, decimals, hfraction]
    rfl

/-- **Decimals in text**: two numbers that are finite and not negative are told apart by their
texts. -/
theorem decimalText_inj (h : decimalText (.finite false scale fraction) =
    decimalText (.finite false scale' fraction')) : scale = scale' ∧ fraction = fraction' := by
  have hpoint : ∀ {cs : List Char}, ∀ c ∈ ('.' :: cs).head?, ¬ c.isDigit = true := by
    intro cs c hc
    cases hc
    decide
  have hchars := congrArg String.toList h
  rw [toList_decimalText, toList_decimalText] at hchars
  have hwritten : ∀ s f, ∀ c ∈ (Binary64.shortest s f).whole, c.isDigit := fun s f c hc ↦
    isDigit_written (Binary64.isDigit_shortest s f) c (List.mem_append_left _ hc)
  obtain ⟨hwhole, hrest⟩ :=
    Text.run_unique (hwritten scale fraction) (hwritten scale' fraction') hpoint hpoint hchars
  have hdecimals := (List.cons.inj hrest).2
  -- the same digits stand for the same value
  have hvalue : (Binary64.shortest scale fraction).value =
      (Binary64.shortest scale' fraction').value := by
    have hwritten := natOfDigits_written (Binary64.shortest scale fraction)
    rw [hwhole, hdecimals, natOfDigits_written] at hwritten
    exact (mul_right_cancel₀ (by positivity) hwritten).symm
  have hround := Binary64.roundsTo_value_shortest scale fraction
  rw [hvalue] at hround
  exact hround.unique (Binary64.roundsTo_value_shortest scale' fraction')

end Literal

end Questionnaire
