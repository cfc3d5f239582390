import SchemaTyping.Proofs.Binary64.Intervals

set_option autoImplicit false

/-! # The shortest decimal of a double

The search tries one grid after the other and ends with a hit: on the last grid the double has seventeen digits,
and there one of its neighbours lies in its interval. So the decimal that is found is near to the double
(`near_shortest`).

Nothing is known of the width of other intervals. Their search may end without a hit, but it never makes a zero
out of a number that is at least one (`shortest_digits_ne_zero`). -/

namespace SchemaTyping.Binary64

/-! ## Digits before the point -/

/-- The numerator of the value of an interval's centre; the denominator is `denominator`. -/
def Interval.numerator (i : Interval) : Nat := i.centre * Nat.pow 2 i.unit.toNat

@[inherit_doc Interval.numerator]
def Interval.denominator (i : Interval) : Nat := Nat.pow 2 (-i.unit).toNat

/-- The interval does not reach down to zero. -/
def Interval.Positive (i : Interval) : Prop := i.below < i.centre

theorem Interval.point_eq (i : Interval) :
    i.point = if i.denominator ≤ i.numerator
      then ((Nat.toDigits 10 (i.numerator / i.denominator)).length : Int)
      else 1 - (Nat.toDigits 10 (i.denominator / i.numerator)).length := by
  simp only [Interval.point, numerator, denominator, Nat.shiftLeft_eq, Nat.one_mul]
  rfl

/-- A number with digits before the point is at least one. -/
theorem Interval.le_of_point_pos {i : Interval} (h : 0 < i.point) : i.denominator ≤ i.numerator := by
  rw [point_eq] at h
  split at h
  · next hle => exact hle
  · have : 0 < (Nat.toDigits 10 (i.denominator / i.numerator)).length := Nat.length_toDigits_pos
    omega

/-- A number is as large as the digits before its point say. -/
theorem Interval.pow_le_of_lt_point {i : Interval} {power : Int} (hpower : 0 < power)
    (h : power < i.point) :
    i.denominator ≤ i.numerator ∧ Nat.pow 10 power.toNat * i.denominator ≤ i.numerator := by
  have hle := le_of_point_pos (Int.lt_trans hpower h)
  rw [point_eq, if_pos hle] at h
  refine ⟨hle, ?_⟩
  have hden : 0 < i.denominator := Nat.pow_pos (by decide)
  have hlength : ¬ (Nat.toDigits 10 (i.numerator / i.denominator)).length ≤ power.toNat := by omega
  rw [Nat.length_toDigits_le_iff (by decide) (by omega), Nat.not_lt] at hlength
  exact (Nat.le_div_iff_mul_le hden).1 hlength

theorem Interval.holds_zero {i : Interval} (hi : i.Positive) (power : Int) : i.holds power 0 = false := by
  have hlow : 0 < (i.centre - i.below) * gridScale i power :=
    Nat.mul_pos (Nat.sub_pos_of_lt hi) (gridScale_pos i power)
  unfold Interval.holds
  dsimp only
  rw [Nat.zero_mul]
  split <;> refine decide_eq_false fun h => ?_
  · exact absurd h.1 (Nat.not_le.2 hlow)
  · exact Nat.not_lt_zero _ h.1

theorem Interval.holds_of_nearest? {i : Interval} {tie : Tie} {power : Int} {d : Nat}
    (h : i.nearest? tie power = some d) : i.holds power d = true := by
  unfold Interval.nearest? at h
  dsimp only at h
  split at h
  · next hlower _ => cases h; exact hlower
  · next _ hupper => cases h; exact hupper
  · cases h
  · next hlower hupper =>
      split at h
      · cases h; exact hlower
      split at h
      · cases h; exact hupper
      split at h
      · cases h; exact hupper
      · split at h <;> cases h
        · exact hlower
        · exact hupper

theorem Interval.nearest?_ne_zero {i : Interval} {tie : Tie} {power : Int} {d : Nat}
    (hi : i.Positive) (h : i.nearest? tie power = some d) : d ≠ 0 := by
  rintro rfl
  have hholds := holds_of_nearest? h
  rw [holds_zero hi] at hholds
  cases hholds

/-- The interval of a number that is at least one does not reach down to zero. -/
theorem interval_positive {mantissa : Nat} {exponent : Int} (hm : mantissa ≠ 0)
    (h : (interval mantissa exponent).denominator ≤ (interval mantissa exponent).numerator) :
    (interval mantissa exponent).Positive := by
  have hlog : 2 ^ mantissa.log2 ≤ mantissa := Nat.log2_self_le hm
  have hlog' : mantissa < 2 ^ (mantissa.log2 + 1) := Nat.lt_log2_self
  simp only [Interval.Positive, Interval.numerator, Interval.denominator, interval, lastPlace,
    Nat.shiftLeft_eq, Nat.one_mul, Nat.pow_eq] at h ⊢
  generalize hplace : max finest (↑mantissa.log2 + exponent - ↑(mantissaBits - 1)) = place at h ⊢
  generalize hunit : min exponent (place - 2) = unit at h ⊢
  have hfinest : finest = -1074 := rfl
  have hbits : ((mantissaBits - 1 : Nat) : Int) = 52 := rfl
  -- the number is at least one, so its highest power of two is not negative
  have hmagnitude : 0 ≤ (mantissa.log2 : Int) + exponent := by
    refine Int.not_lt.1 fun hlt => ?_
    rw [show unit.toNat = 0 by omega, Nat.pow_zero, Nat.mul_one] at h
    have hbound : mantissa * 2 ^ (exponent - unit).toNat
        < 2 ^ (mantissa.log2 + 1 + (exponent - unit).toNat) := by
      rw [Nat.pow_add]
      exact Nat.mul_lt_mul_of_pos_right hlog' (Nat.pow_pos (by decide))
    have hexponents : 2 ^ (mantissa.log2 + 1 + (exponent - unit).toNat) ≤ 2 ^ (-unit).toNat :=
      Nat.pow_le_pow_right (by decide) (by omega)
    omega
  have hhalf : 2 ^ (place - 1 - unit).toNat < mantissa * 2 ^ (exponent - unit).toNat :=
    calc 2 ^ (place - 1 - unit).toNat
        < 2 ^ (mantissa.log2 + (exponent - unit).toNat) :=
          Nat.pow_lt_pow_right (by decide) (by omega)
      _ = 2 ^ mantissa.log2 * 2 ^ (exponent - unit).toNat := Nat.pow_add _ _ _
      _ ≤ mantissa * 2 ^ (exponent - unit).toNat := Nat.mul_le_mul_right _ hlog
  split
  · exact Nat.lt_of_le_of_lt (Nat.div_le_self _ _) hhalf
  · exact hhalf

theorem Interval.search_digits_ne_zero {i : Interval} {tie : Tie}
    (hi : i.denominator ≤ i.numerator → i.Positive) (grids : Nat) {power : Int}
    (hpower : power ≤ i.point) (hlast : power - grids < i.point) :
    (i.search tie grids power).digits ≠ 0 ∨ (i.search tie grids power).exponent ≤ 0 := by
  induction grids generalizing power with
  | zero =>
      -- no finer grid is left and the number is cut, which leaves a digit if it is at least one
      unfold Interval.search
      by_cases hpositive : 0 < power
      · have hpoint : power < i.point := by omega
        obtain ⟨hle, hpow⟩ := pow_le_of_lt_point hpositive hpoint
        refine Or.inl ?_
        cases hnearest : i.nearest? tie power with
        | some d => exact nearest?_ne_zero (hi hle) hnearest
        | none =>
            have hstep : gridStep i power = 10 ^ power.toNat * i.denominator := by
              simp only [gridStep, denominator, Nat.shiftLeft_eq]
              rfl
            have hscale : i.centre * gridScale i power = i.numerator := by
              rw [gridScale, show (-power).toNat = 0 by omega, numerator, Nat.shiftLeft_eq]
              exact congrArg (i.centre * ·) (Nat.one_mul _)
            simp only [Option.getD_none]
            rw [hscale]
            exact Nat.ne_of_gt (Nat.div_pos (hstep ▸ hpow) (gridStep_pos i power))
      · exact Or.inr (Int.not_lt.1 hpositive)
  | succ grids ih =>
      unfold Interval.search
      cases hnearest : i.nearest? tie power with
      | some d =>
          by_cases hpositive : 0 < power
          · have hpoint : 0 < i.point := by omega
            exact Or.inl (nearest?_ne_zero (hi (le_of_point_pos hpoint)) hnearest)
          · exact Or.inr (Int.not_lt.1 hpositive)
      | none => exact ih (by omega) (by omega)

/-- The shortest decimal is no zero with further zeros behind it. -/
theorem shortest_digits_ne_zero (tie : Tie) {mantissa : Nat} (hm : mantissa ≠ 0) (exponent : Int) :
    (shortest tie mantissa exponent).digits ≠ 0 ∨ (shortest tie mantissa exponent).exponent ≤ 0 := by
  refine Interval.search_digits_ne_zero (interval_positive hm) maxDigits (Int.le_refl _) ?_
  have : (0 : Int) < (maxDigits : Nat) := by decide
  omega

/-! ## The decimal that is found -/

variable {i : Interval} {power : Int}

theorem Interval.isSome_nearest? {tie : Tie}
    (h : i.holds power (i.centre * gridScale i power / gridStep i power) = true ∨
      i.holds power (i.centre * gridScale i power / gridStep i power + 1) = true) :
    (i.nearest? tie power).isSome = true := by
  unfold Interval.nearest?
  dsimp only
  split
  · rfl
  · rfl
  · next hlower hupper =>
      rw [hlower, hupper] at h
      simp at h
  · cases tie <;> split_ifs <;> rfl

/-- The value of an interval's centre. -/
theorem Interval.ratio_eq (i : Interval) : (i.numerator : ℚ) / i.denominator = i.centre * 2 ^ i.unit := by
  have htwo : (2 : ℚ) ^ i.unit = 2 ^ i.unit.toNat / 2 ^ (-i.unit).toNat := by
    rw [← zpow_natCast, ← zpow_natCast, ← zpow_sub₀ (by norm_num)]
    congr 1
    omega
  rw [htwo, numerator, denominator, Nat.pow_eq, Nat.pow_eq]
  push_cast
  rw [mul_div_assoc]

/-- No digit of a number is left of those before its point. -/
theorem Interval.pow_point_le (hcentre : 0 < i.centre) :
    (10 : ℚ) ^ (i.point - 1) ≤ i.centre * 2 ^ i.unit := by
  have hnum : 0 < i.numerator := Nat.mul_pos hcentre (Nat.pow_pos (by decide))
  have hden : 0 < i.denominator := Nat.pow_pos (by decide)
  have hden' : (0 : ℚ) < i.denominator := mod_cast hden
  rw [← ratio_eq, point_eq]
  split
  · next hle =>
      calc (10 : ℚ) ^ (((Nat.toDigits 10 (i.numerator / i.denominator)).length : Int) - 1)
          ≤ (i.numerator / i.denominator : Nat) := (toDigits_bounds (Nat.div_pos hle hden)).1
        _ ≤ i.numerator / i.denominator := by
            rw [le_div_iff₀ hden']
            exact_mod_cast Nat.div_mul_le_self _ _
  · next hlt =>
      obtain ⟨-, hmost⟩ := toDigits_bounds (Nat.div_pos (Nat.le_of_not_le hlt) hnum)
      generalize (Nat.toDigits 10 (i.denominator / i.numerator)).length = length at hmost ⊢
      rw [zpow_natCast] at hmost
      have hinverse : i.denominator < 10 ^ length * i.numerator :=
        (Nat.div_lt_iff_lt_mul hnum).1 (by exact_mod_cast hmost)
      rw [show (1 : Int) - length - 1 = -length by omega, zpow_neg, zpow_natCast, le_div_iff₀ hden',
        inv_mul_le_iff₀ (by positivity)]
      exact_mod_cast hinverse.le

/-- A hit on one of the grids is a point in the interval. -/
theorem Interval.search_holds {tie : Tie} (grids : Nat) {power : Int}
    (h : (i.nearest? tie (power - grids)).isSome = true) :
    i.holds (i.search tie grids power).exponent (i.search tie grids power).digits = true := by
  induction grids generalizing power with
  | zero =>
      obtain ⟨d, hd⟩ := Option.isSome_iff_exists.1 h
      rw [Int.natCast_zero, Int.sub_zero] at hd
      unfold Interval.search
      rw [hd]
      exact holds_of_nearest? hd
  | succ grids ih =>
      unfold Interval.search
      cases hnearest : i.nearest? tie power with
      | some d => exact holds_of_nearest? hnearest
      | none =>
          refine ih ?_
          rwa [show power - 1 - (grids : Int) = power - (grids + 1 : Nat) by omega]

variable {n k : Int} {hn : n % 2 = 1}

/-- **The shortest decimal of a double is near to it.** -/
theorem near_shortest (tie : Tie) (h : IsDouble (.ofOdd n k hn)) :
    Near (fullMantissa n.natAbs (-k)) (placeOf n.natAbs (-k))
      ((shortest tie n.natAbs (-k)).digits * 10 ^ (shortest tie n.natAbs (-k)).exponent) := by
  obtain ⟨hle, hplaced⟩ := placed_of_isDouble h
  have hodd : n.natAbs % 2 = 1 := by omega
  have hcentre : ((interval n.natAbs (-k)).centre : ℚ) * 2 ^ (interval n.natAbs (-k)).unit
      = fullMantissa n.natAbs (-k) * 2 ^ placeOf n.natAbs (-k) := by
    rw [interval_ends hle, interval_eq hle]
    push_cast
    ring
  have hpos : 0 < (interval n.natAbs (-k)).centre := by
    rw [interval_eq hle]
    exact Nat.mul_pos (by decide) hplaced.pos
  refine near_of_holds hle hodd (Interval.search_holds _ (Interval.isSome_nearest? ?_))
  refine exists_held hle hodd hplaced ?_ ?_ ?_
  · -- on the last grid the number has seventeen digits
    rw [← hcentre, ← zpow_natCast, ← zpow_add₀ (by norm_num)]
    refine le_trans (le_of_eq ?_) (Interval.pow_point_le hpos)
    congr 1
    unfold maxDigits
    omega
  · rw [← hcentre, ← grid_le_iff]
    exact Nat.div_mul_le_self _ _
  · rw [← hcentre, ← not_le, ← grid_le_iff, Nat.not_le]
    exact Nat.lt_mul_of_div_lt (Nat.lt_succ_self _) (gridStep_pos _ _)

end SchemaTyping.Binary64
