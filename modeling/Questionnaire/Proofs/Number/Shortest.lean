import Questionnaire.Number.Shortest
import Questionnaire.Proofs.Number.Exact

/-!
# Shortest decimals read back

The reals that round to a magnitude form an interval around it (`RoundsTo`), and the intervals of
two magnitudes share no real: where they meet, one of them is open, since of two neighbouring
significands one is odd (`RoundsTo.unique`).

The search for the shortest decimal ends with a decimal in the interval of its magnitude. On the
grid of seventeen digits the nearest point lies in the interval: the grid is finer than a magnitude
divided by ten to the sixteenth, and an interval reaches to both sides at least as far as its
magnitude divided by two to the 54th (`roundsTo_near`). So the shortest decimal of a magnitude has
the digits of one that rounds to it (`shortest_eq`).
-/

namespace Questionnaire

namespace Binary64

variable {scale scale' : Fin 2047} {fraction fraction' : Fin 0x10000000000000} {v : ℚ}

/-! ### The reals that round to a magnitude -/

/-- A quarter of the last place of a significand. -/
def quarter (scale : Fin 2047) : ℚ :=
  2 ^ (exponent scale - 2)

/-- The lower end of the interval of a magnitude, in quarters of the last place. -/
def lowQuarters (scale : Fin 2047) (fraction : Fin 0x10000000000000) : Nat :=
  if fraction.val = 0 ∧ 1 < scale.val then 4 * significand scale fraction - 1
  else 4 * significand scale fraction - 2

/-- The real `v` rounds to a magnitude. The ends of the interval do so when the significand is
even. -/
@[mk_iff]
structure RoundsTo (scale : Fin 2047) (fraction : Fin 0x10000000000000) (v : ℚ) : Prop where
  low_le : lowQuarters scale fraction * quarter scale ≤ v
  le_high : v ≤ (4 * significand scale fraction + 2 : ℕ) * quarter scale
  odd : significand scale fraction % 2 = 1 → lowQuarters scale fraction * quarter scale < v ∧
    v < (4 * significand scale fraction + 2 : ℕ) * quarter scale

theorem quarter_pos (scale : Fin 2047) : 0 < quarter scale := by
  rw [quarter]
  positivity

/-- Between two magnitudes the upper end of the lower interval is not above the lower end of the
upper one, and is below it when both intervals are closed. -/
theorem high_le_low (h : rank scale fraction < rank scale' fraction') :
    ∃ j : ℕ, quarter scale' = 2 ^ j * quarter scale ∧
      4 * significand scale fraction + 2 ≤ lowQuarters scale' fraction' * 2 ^ j ∧
      (significand scale fraction % 2 = 0 → significand scale' fraction' % 2 = 0 →
        4 * significand scale fraction + 2 < lowQuarters scale' fraction' * 2 ^ j) := by
  have hrank : scale.val * 0x10000000000000 + fraction.val <
      scale'.val * 0x10000000000000 + fraction'.val := h
  have hfraction := fraction.isLt
  have hfraction' := fraction'.isLt
  have hexponent : exponent scale ≤ exponent scale' := by
    rw [exponent, exponent]
    omega
  refine ⟨(exponent scale' - exponent scale).toNat, ?_, ?_⟩
  · rw [quarter, quarter, ← zpow_natCast, ← zpow_add₀ two_ne_zero]
    congr 1
    omega
  · rcases hexponent.eq_or_lt with heq | hlt
    · -- one exponent: the significands are apart by one at least, and by two if both are even
      rw [heq, sub_self, Int.toNat_zero, pow_zero, mul_one]
      rw [exponent, exponent] at heq
      simp only [lowQuarters, significand]
      split <;> split <;> split <;> omega
    · -- two exponents: the lower significand is below `2 ^ 53`, and if even below `2 ^ 53 - 1`
      have hup : 2 ≤ 2 ^ (exponent scale' - exponent scale).toNat :=
        le_self_pow₀ one_le_two (by omega)
      have hscale : 1 < scale'.val := by
        rw [exponent, exponent] at hlt
        omega
      have hlow : 2 ^ 54 - 1 ≤ lowQuarters scale' fraction' := by
        simp only [lowQuarters, significand, if_neg (show scale'.val ≠ 0 by omega)]
        split <;> omega
      have hhigh := significand_lt scale fraction
      have hmul := Nat.mul_le_mul hlow hup
      constructor <;> omega

/-- A real that rounds to two magnitudes does not make one of them the lower one: it would have to
lie in both intervals, and where they meet the ends of one are open. -/
theorem RoundsTo.rank_le (h : RoundsTo scale fraction v) (h' : RoundsTo scale' fraction' v) :
    rank scale' fraction' ≤ rank scale fraction := by
  refine not_lt.1 fun hlt ↦ ?_
  obtain ⟨j, hquarter, hle, heven⟩ := high_le_low hlt
  have hpos := quarter_pos scale
  have hlow : (lowQuarters scale' fraction' * 2 ^ j : ℕ) * quarter scale =
      lowQuarters scale' fraction' * quarter scale' := by
    rw [hquarter]
    push_cast
    ring
  have hends : ((4 * significand scale fraction + 2 : ℕ) : ℚ) * quarter scale ≤
      (lowQuarters scale' fraction' * 2 ^ j : ℕ) * quarter scale := by gcongr
  rcases Nat.mod_two_eq_zero_or_one (significand scale fraction) with hm | hm
  · rcases Nat.mod_two_eq_zero_or_one (significand scale' fraction') with hm' | hm'
    · have hstrict : ((4 * significand scale fraction + 2 : ℕ) : ℚ) * quarter scale <
          (lowQuarters scale' fraction' * 2 ^ j : ℕ) * quarter scale := by
        gcongr
        exact heven hm hm'
      linarith [h.le_high, h'.low_le]
    · linarith [h.le_high, (h'.odd hm').1]
  · linarith [(h.odd hm).2, h'.low_le]

/-- **No real rounds to two magnitudes.** -/
theorem RoundsTo.unique (h : RoundsTo scale fraction v) (h' : RoundsTo scale' fraction' v) :
    scale = scale' ∧ fraction = fraction' := by
  have hrank : rank scale fraction = rank scale' fraction' :=
    le_antisymm (h'.rank_le h) (h.rank_le h')
  have hfinite : finite false scale fraction = finite false scale' fraction' := by
    rw [← ofRank_rank, hrank, ofRank_rank]
  exact ⟨(finite.inj hfinite).2.1, (finite.inj hfinite).2.2⟩

/-! ### Decimals in an interval -/

/-- The denominator over which a decimal is compared with a multiple of a power of two. -/
def commonDen (e k : ℤ) : ℕ :=
  Nat.pow 2 (-e).toNat * Nat.pow 10 (-k).toNat

theorem commonDen_pos (e k : ℤ) : (0 : ℚ) < commonDen e k := by
  exact_mod_cast Nat.mul_pos (Nat.pow_pos (by decide)) (Nat.pow_pos (by decide))

theorem binary_eq_div (n : ℕ) (e k : ℤ) : (n * 2 ^ e : ℚ) =
    (n * Nat.pow 2 e.toNat * Nat.pow 10 (-k).toNat : ℕ) / commonDen e k := by
  rw [← pow_toNat_div_pow_toNat two_ne_zero e]
  simp only [commonDen, Nat.pow_eq]
  push_cast
  field_simp

theorem decimal_eq_div (a : ℕ) (e k : ℤ) : (a * 10 ^ k : ℚ) =
    (a * Nat.pow 10 k.toNat * Nat.pow 2 (-e).toNat : ℕ) / commonDen e k := by
  rw [← pow_toNat_div_pow_toNat (by norm_num) k]
  simp only [commonDen, Nat.pow_eq]
  push_cast
  field_simp

/-- **The decimals in the interval** of a magnitude are those that round to it. -/
theorem contains_iff (a : ℕ) (k : ℤ) :
    (interval scale fraction).contains a k ↔ RoundsTo scale fraction (a * 10 ^ k) := by
  have hpos := commonDen_pos (exponent scale - 2) k
  rw [roundsTo_iff, quarter, binary_eq_div _ _ k, binary_eq_div _ _ k, decimal_eq_div a _ k,
    div_le_div_iff_of_pos_right hpos, div_le_div_iff_of_pos_right hpos,
    div_lt_div_iff_of_pos_right hpos, div_lt_div_iff_of_pos_right hpos]
  simp only [Nat.cast_le, Nat.cast_lt]
  set x := a * Nat.pow 10 k.toNat * Nat.pow 2 (-(exponent scale - 2)).toNat
  set low := lowQuarters scale fraction * Nat.pow 2 (exponent scale - 2).toNat *
    Nat.pow 10 (-k).toNat
  set high := (4 * significand scale fraction + 2) * Nat.pow 2 (exponent scale - 2).toNat *
    Nat.pow 10 (-k).toNat
  show (if significand scale fraction % 2 == 0 then decide (low ≤ x ∧ x ≤ high)
    else decide (low < x ∧ x < high)) = true ↔ _
  rcases Nat.mod_two_eq_zero_or_one (significand scale fraction) with hm | hm
  · simp [hm]
  · simp only [hm, one_ne_zero, beq_iff_eq, if_false, decide_eq_true_eq, true_imp_iff]
    exact ⟨fun h ↦ ⟨h.1.le, h.2.le, h⟩, fun h ↦ h.2.2⟩

/-! ### The first digit -/

variable {num den : ℕ}

/-- Powers of ten and of two are compared by a power of ten and one of two that are near to each
other. -/
theorem ten_zpow_le_two_zpow {p q : ℕ} {g e : ℤ} (hp : p ≠ 0)
    (hbase : ((10 : ℚ) ^ p) ^ g ≤ (2 ^ q) ^ g) (hexponent : q * g ≤ p * e) :
    (10 : ℚ) ^ g ≤ 2 ^ e := by
  have hswap : ∀ (b : ℚ) (n : ℕ) (z : ℤ), (b ^ z) ^ n = (b ^ n) ^ z := by
    intro b n z
    rw [← zpow_natCast, ← zpow_mul, mul_comm, zpow_mul, zpow_natCast]
  refine le_of_pow_le_pow_left₀ hp (by positivity) ?_
  calc ((10 : ℚ) ^ g) ^ p = (10 ^ p) ^ g := hswap 10 p g
    _ ≤ (2 ^ q) ^ g := hbase
    _ = 2 ^ (q * g) := by rw [zpow_mul, zpow_natCast]
    _ ≤ 2 ^ (p * e) := zpow_le_zpow_right₀ one_le_two hexponent
    _ = (2 ^ e) ^ p := by rw [hswap, zpow_mul, zpow_natCast]

/-- The guess at the place of the first digit is not too large. -/
theorem ten_zpow_guess_le {d : ℤ} (hlow : -1100 ≤ d) (hhigh : d ≤ 1100) :
    (10 : ℚ) ^ (d * 30103 / 100000 - 1 - 1) ≤ 2 ^ (d - 1) := by
  rcases le_total 0 (d * 30103 / 100000 - 1 - 1) with hg | hg
  · refine ten_zpow_le_two_zpow (p := 3) (q := 10) (by decide) ?_ (by push_cast; omega)
    exact zpow_le_zpow_left₀ hg (by positivity) (by norm_num)
  · refine ten_zpow_le_two_zpow (p := 28) (q := 93) (by decide) ?_ (by push_cast; omega)
    have hinverse : ((2 : ℚ) ^ 93) ^ (-(d * 30103 / 100000 - 1 - 1)) ≤
        (10 ^ 28) ^ (-(d * 30103 / 100000 - 1 - 1)) :=
      zpow_le_zpow_left₀ (neg_nonneg.2 hg) (by positivity) (by norm_num)
    rw [zpow_neg, zpow_neg] at hinverse
    exact (inv_le_inv₀ (by positivity) (by positivity)).1 hinverse

/-- **The first digit** of a quotient stands below its point. -/
theorem ten_zpow_decimalPoint_le (hnum : 0 < num) (hden : 0 < den)
    (hlow : -1100 ≤ (num.log2 : ℤ) - den.log2) (hhigh : (num.log2 : ℤ) - den.log2 ≤ 1100) :
    (10 : ℚ) ^ (decimalPoint num den - 1) ≤ num / den := by
  have hguess := (ten_zpow_guess_le hlow hhigh).trans (ratio_bounds hnum hden).1
  have hnot : ∀ p : ℤ, ¬ num * Nat.pow 10 (-p).toNat < den * Nat.pow 10 p.toNat →
      (10 : ℚ) ^ p ≤ num / den := by
    intro p hp
    have hden' : (0 : ℚ) < den := by exact_mod_cast hden
    rw [← pow_toNat_div_pow_toNat (by norm_num) p, div_le_div_iff₀ (by positivity) hden', mul_comm]
    exact_mod_cast not_lt.1 hp
  rw [decimalPoint]
  set guess : ℤ := ((num.log2 : ℤ) - den.log2) * 30103 / 100000 - 1
  simp only [decide_eq_true_eq]
  split
  · exact hguess
  · next h0 =>
    split
    · simpa using hnot _ h0
    · next h1 =>
      split
      · have hstep : guess + 2 - 1 = guess + 1 := by omega
        rw [hstep]
        exact hnot _ h1
      · next h2 =>
        have hstep : guess + 3 - 1 = guess + 2 := by omega
        rw [hstep]
        exact hnot _ h2

/-! ### The nearest decimals -/

theorem roundHalfEven_cases (n d : ℕ) :
    roundHalfEven n d = n / d ∧ 2 * (n % d) ≤ d ∨
      roundHalfEven n d = n / d + 1 ∧ d ≤ 2 * (n % d) := by
  rw [roundHalfEven]
  split
  · omega
  · split <;> omega

/-- Rounding goes half a unit at most. -/
theorem abs_roundHalfEven_sub_le (n : ℕ) {d : ℕ} (hd : 0 < d) :
    |(roundHalfEven n d : ℚ) - n / d| ≤ 1 / 2 := by
  have hpos : (0 : ℚ) < d := by exact_mod_cast hd
  have hdivision : (n / d : ℚ) = (n / d : ℕ) + (n % d : ℕ) / d := by
    rw [div_eq_iff hpos.ne', add_mul, div_mul_cancel₀ _ hpos.ne']
    exact_mod_cast (Nat.div_add_mod' n d).symm
  have hrest : ((n % d : ℕ) : ℚ) / d < 1 := by
    rw [div_lt_one hpos]
    exact_mod_cast Nat.mod_lt n hd
  have hnonneg : (0 : ℚ) ≤ ((n % d : ℕ) : ℚ) / d := by positivity
  rw [hdivision, abs_le]
  rcases roundHalfEven_cases n d with ⟨heq, hle⟩ | ⟨heq, hle⟩
  · have hhalf : ((n % d : ℕ) : ℚ) / d ≤ 1 / 2 := by
      rw [div_le_div_iff₀ hpos two_pos, mul_comm, one_mul]
      exact_mod_cast hle
    rw [heq]
    constructor <;> linarith
  · have hhalf : 1 / 2 ≤ ((n % d : ℕ) : ℚ) / d := by
      rw [div_le_div_iff₀ two_pos hpos, mul_comm _ (2 : ℚ), one_mul]
      exact_mod_cast hle
    rw [heq]
    push_cast
    constructor <;> linarith

theorem quarters_eq_magnitude (scale : Fin 2047) (fraction : Fin 0x10000000000000) :
    4 * significand scale fraction * quarter scale = magnitude scale fraction := by
  rw [quarter, magnitude, zpow_sub₀ two_ne_zero]
  ring

theorem mid_div_den (scale : Fin 2047) (fraction : Fin 0x10000000000000) :
    ((interval scale fraction).mid : ℚ) / (interval scale fraction).den =
      magnitude scale fraction := by
  rw [← quarters_eq_magnitude, quarter, ← pow_toNat_div_pow_toNat two_ne_zero]
  simp only [interval, Nat.pow_eq]
  push_cast
  rw [mul_div_assoc]

theorem den_pos (scale : Fin 2047) (fraction : Fin 0x10000000000000) :
    0 < (interval scale fraction).den :=
  Nat.pow_pos (by decide)

theorem mid_pos (h : significand scale fraction ≠ 0) : 0 < (interval scale fraction).mid :=
  Nat.mul_pos (Nat.mul_pos (by decide) (Nat.pos_of_ne_zero h)) (Nat.pow_pos (by decide))

/-- An interval reaches to both sides of its magnitude by this divided by `2 ^ 54`. -/
theorem RoundsTo.of_near (h : 2 ^ 54 * |v - magnitude scale fraction| < magnitude scale fraction) :
    RoundsTo scale fraction v := by
  have hpos := quarter_pos scale
  have hmagnitude := quarters_eq_magnitude scale fraction
  have hm := significand_lt scale fraction
  have hlow : 2 ^ 54 * lowQuarters scale fraction + 4 * significand scale fraction ≤
      2 ^ 54 * (4 * significand scale fraction) := by
    rw [lowQuarters]
    split
    · next hfirst =>
      -- the first significand of a scale: the gap below it is half as wide
      have hsignificand : significand scale fraction = 2 ^ 52 := by
        rw [significand, if_neg (by omega), hfirst.1]
        norm_num
      omega
    · omega
  have hhigh : 4 * significand scale fraction ≤ 2 ^ 54 * 2 := by omega
  have hlow' : 2 ^ 54 * (lowQuarters scale fraction * quarter scale) + magnitude scale fraction ≤
      2 ^ 54 * magnitude scale fraction := by
    have hcast : (2 ^ 54 * lowQuarters scale fraction + 4 * significand scale fraction : ℚ) ≤
        2 ^ 54 * (4 * significand scale fraction) := by exact_mod_cast hlow
    have hmul := mul_le_mul_of_nonneg_right hcast hpos.le
    linarith
  have hhigh' : magnitude scale fraction ≤ 2 ^ 54 * (2 * quarter scale) := by
    have hcast : (4 * significand scale fraction : ℚ) ≤ 2 ^ 54 * 2 := by exact_mod_cast hhigh
    have hmul := mul_le_mul_of_nonneg_right hcast hpos.le
    linarith
  have hends : ((4 * significand scale fraction + 2 : ℕ) : ℚ) * quarter scale =
      magnitude scale fraction + 2 * quarter scale := by
    push_cast
    linarith
  have hbelow := neg_abs_le (v - magnitude scale fraction)
  have habove := le_abs_self (v - magnitude scale fraction)
  have hstrict : lowQuarters scale fraction * quarter scale < v ∧
      v < (4 * significand scale fraction + 2 : ℕ) * quarter scale := by
    rw [hends]
    constructor <;> linarith
  exact ⟨hstrict.1.le, hstrict.2.le, fun _ ↦ hstrict⟩

/-- The sizes of the numerator and the denominator of a magnitude. -/
theorem interval_log2_bounds (h : significand scale fraction ≠ 0) :
    -1100 ≤ ((interval scale fraction).mid.log2 : ℤ) - (interval scale fraction).den.log2 ∧
      ((interval scale fraction).mid.log2 : ℤ) - (interval scale fraction).den.log2 ≤ 1100 := by
  obtain ⟨hlow, hhigh⟩ := ratio_bounds (mid_pos h) (den_pos scale fraction)
  rw [mid_div_den] at hlow hhigh
  have hmost : magnitude scale fraction < 2 ^ (1024 : ℤ) := by
    exact_mod_cast (magnitude_le_largest scale fraction).trans_lt largest_lt
  have hbelow := (zpow_lt_zpow_iff_right₀ one_lt_two).1 (hlow.trans_lt hmost)
  have habove := (zpow_lt_zpow_iff_right₀ one_lt_two).1 ((le_magnitude h).trans_lt hhigh)
  omega

/-- The point of the grid `10 ^ k` that is nearest to the middle of an interval. -/
def Interval.near (i : Interval) (k : ℤ) : ℕ :=
  roundHalfEven (i.mid * Nat.pow 10 (-k).toNat) (i.den * Nat.pow 10 k.toNat)

/-- The nearest point of a grid is half of its width away at most. -/
theorem abs_near_sub_le (scale : Fin 2047) (fraction : Fin 0x10000000000000) (k : ℤ) :
    |((interval scale fraction).near k * 10 ^ k : ℚ) - magnitude scale fraction| ≤ 10 ^ k / 2 := by
  set i := interval scale fraction with hi
  have hpos : (0 : ℚ) < 10 ^ k := by positivity
  have hden : 0 < i.den * Nat.pow 10 k.toNat :=
    Nat.mul_pos (den_pos scale fraction) (Nat.pow_pos (by decide))
  have hquotient : ((i.mid * Nat.pow 10 (-k).toNat : ℕ) : ℚ) / (i.den * Nat.pow 10 k.toNat : ℕ) =
      magnitude scale fraction / 10 ^ k := by
    rw [← mid_div_den, ← hi, ← pow_toNat_div_pow_toNat (by norm_num) k]
    simp only [Nat.pow_eq]
    push_cast
    rw [div_div_eq_mul_div, div_mul_eq_mul_div, div_div]
  have hnear : |(i.near k : ℚ) - magnitude scale fraction / 10 ^ k| ≤ 1 / 2 := by
    rw [← hquotient]
    exact abs_roundHalfEven_sub_le _ hden
  calc |(i.near k * 10 ^ k : ℚ) - magnitude scale fraction|
      = |(i.near k : ℚ) - magnitude scale fraction / 10 ^ k| * 10 ^ k := by
        rw [← abs_of_pos hpos, ← abs_mul, abs_of_pos hpos, sub_mul, div_mul_cancel₀ _ hpos.ne']
    _ ≤ 1 / 2 * 10 ^ k := by gcongr
    _ = 10 ^ k / 2 := by ring

/-- **Seventeen digits** are enough: the nearest decimal of so many rounds to its magnitude. -/
theorem roundsTo_near (h : significand scale fraction ≠ 0) {k : ℤ}
    (hk : k = decimalPoint (interval scale fraction).mid (interval scale fraction).den - 17) :
    RoundsTo scale fraction ((interval scale fraction).near k * 10 ^ k) := by
  obtain ⟨hlow, hhigh⟩ := interval_log2_bounds h
  have hpoint := ten_zpow_decimalPoint_le (mid_pos h) (den_pos scale fraction) hlow hhigh
  rw [mid_div_den] at hpoint
  have hgrid : (10 : ℚ) ^ 16 * 10 ^ k ≤ magnitude scale fraction := by
    refine le_of_eq_of_le ?_ hpoint
    rw [← zpow_natCast, ← zpow_add₀ (by norm_num), hk]
    congr 1
    push_cast
    ring
  have hpos : (0 : ℚ) < 10 ^ k := by positivity
  refine RoundsTo.of_near ?_
  calc 2 ^ 54 * |((interval scale fraction).near k * 10 ^ k : ℚ) - magnitude scale fraction|
      ≤ 2 ^ 54 * (10 ^ k / 2) := by
        gcongr
        exact abs_near_sub_le scale fraction k
    _ = 2 ^ 53 * 10 ^ k := by ring
    _ < 10 ^ 16 * 10 ^ k := by
        gcongr ?_ * _
        norm_num
    _ ≤ magnitude scale fraction := hgrid

/-! ### The search -/

theorem contains_of_neighbour {i : Interval} {k : ℤ} {a : ℕ} (h : i.neighbour k = some a) :
    i.contains a k := by
  obtain ⟨far, hneighbour⟩ : ∃ far, i.neighbour k =
      if i.contains (i.near k) k then some (i.near k)
      else if i.contains far k then some far else none := ⟨_, rfl⟩
  rw [hneighbour] at h
  split at h
  · next hnear => exact Option.some.inj h ▸ hnear
  · split at h
    · next hfar => exact Option.some.inj h ▸ hfar
    · exact absurd h (by simp)

theorem exists_neighbour {i : Interval} {k : ℤ} (h : i.contains (i.near k) k) :
    ∃ a, i.neighbour k = some a :=
  ⟨i.near k, if_pos h⟩

/-- The search ends in the interval when the last grid that it tries has a point there. -/
theorem contains_search {i : Interval} {point : ℤ} (fuel count : ℕ)
    (hlast : ∃ a, i.neighbour (point - (count + fuel : ℕ)) = some a) :
    i.contains (i.search point fuel count).1 (i.search point fuel count).2 := by
  induction fuel generalizing count with
  | zero =>
    obtain ⟨a, ha⟩ := hlast
    rw [Nat.add_zero] at ha
    rw [Interval.search, ha]
    exact contains_of_neighbour ha
  | succ fuel ih =>
    rw [Interval.search]
    cases hfirst : i.neighbour (point - count) with
    | some a => exact contains_of_neighbour hfirst
    | none =>
      refine ih (count + 1) ?_
      rwa [Nat.add_right_comm, Nat.add_assoc]

/-- **The digits of a magnitude** are those of a decimal that rounds to it. -/
theorem shortest_eq (h : significand scale fraction ≠ 0) : ∃ (a : ℕ) (k : ℤ),
    RoundsTo scale fraction (a * 10 ^ k) ∧ shortest scale fraction =
      ⟨dropTrailingZeros (Nat.toDigits 10 a), (Nat.toDigits 10 a).length + k⟩ := by
  have hlast : (interval scale fraction).contains _ _ := (contains_iff _ _).2 (roundsTo_near h rfl)
  have hfound := contains_search 16 1 (exists_neighbour hlast)
  refine ⟨_, _, (contains_iff _ _).1 hfound, ?_⟩
  rw [shortest, if_neg h]

end Binary64

end Questionnaire
