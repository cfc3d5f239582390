import Mathlib.Data.Nat.Prime.Basic
import SchemaTyping.Binary64.Shortest
import SchemaTyping.Proofs.Binary64.Rounding

set_option autoImplicit false

/-! # The interval of a double

The shortest decimal is looked for in the interval of the reals that round to a double. A double has an odd
mantissa there, and a full one in its last place here (`placed_of_isDouble`, `ofOdd_eq`). Grids and units are
compared in a common scale (`exists_scale`), and the interval is then one of rational numbers around the full
mantissa (`holds_interval_iff`).

Two facts come out of it: what the interval holds is near to the double (`near_of_holds`), and it is wide enough
for a point of any grid on which the double has seventeen digits (`exists_held`). -/

namespace SchemaTyping.Binary64

/-! ## The place of a double -/

/-- The last place of the double `odd · 2 ^ exponent`. -/
def placeOf (odd : Nat) (exponent : Int) : Int := lastPlace (odd.log2 + exponent)

/-- The mantissa of the double `odd · 2 ^ exponent` in units of its last place. -/
def fullMantissa (odd : Nat) (exponent : Int) : Nat := odd * 2 ^ (exponent - placeOf odd exponent).toNat

variable {n k : Int} {hn : n % 2 = 1}

/-- An odd mantissa belongs to the highest place in which the number is an integer. -/
theorem of_ofOdd_eq {mantissa place : Int} (h : Dyadic.ofOdd n k hn = .ofIntWithPrec mantissa (-place)) :
    place ≤ -k ∧ mantissa = n * 2 ^ (-k - place).toNat := by
  have hvalue := congrArg Dyadic.toRat h
  rw [Dyadic.toRat_ofOdd_eq_mul_two_pow, toRat_ofIntWithPrec] at hvalue
  have hplace : place ≤ -k := by
    by_contra hlt
    obtain ⟨j, hj⟩ : ∃ j : Nat, place = -k + (j + 1) := ⟨(place + k - 1).toNat, by omega⟩
    rw [hj, two_zpow_add, mul_left_comm, mul_comm, mul_right_inj' (two_zpow_pos _).ne'] at hvalue
    have heven : n = mantissa * 2 ^ (j + 1) := by exact_mod_cast hvalue
    rw [heven, pow_succ, ← mul_assoc] at hn
    omega
  refine ⟨hplace, ?_⟩
  rw [show -k = ((-k - place).toNat : Int) + place by omega, two_zpow_add, ← mul_assoc,
    mul_left_inj' (two_zpow_pos _).ne'] at hvalue
  exact_mod_cast hvalue.symm

theorem placed_of_isDouble (h : IsDouble (.ofOdd n k hn)) :
    placeOf n.natAbs (-k) ≤ -k ∧ Placed (fullMantissa n.natAbs (-k)) (placeOf n.natAbs (-k)) := by
  obtain ⟨mantissa, place, hlt, hfinest, hcoarsest, heq⟩ := h
  obtain ⟨hplace, rfl⟩ := of_ofOdd_eq heq
  have hpos : 0 < n.natAbs := by omega
  have hlow : 2 ^ n.natAbs.log2 ≤ n.natAbs := Nat.log2_self_le (Nat.ne_of_gt hpos)
  have hhigh : n.natAbs < 2 ^ (n.natAbs.log2 + 1) := Nat.lt_log2_self
  have hbits : n.natAbs.log2 + (-k - place).toNat < 53 := by
    rw [Int.natAbs_mul, Int.natAbs_pow] at hlt
    refine (Nat.pow_lt_pow_iff_right (by decide : 1 < 2)).1 (Nat.lt_of_le_of_lt ?_ hlt)
    rw [Nat.pow_add]
    exact Nat.mul_le_mul_right _ hlow
  have hdef : placeOf n.natAbs (-k) = max finest (n.natAbs.log2 + -k - 52) := rfl
  unfold fullMantissa
  generalize placeOf n.natAbs (-k) = place' at hdef ⊢
  have hscale : 0 < 2 ^ (-k - place').toNat := Nat.pow_pos (by decide)
  refine ⟨by omega, Nat.mul_pos hpos hscale, ?_, by omega, by omega, fun hnormal => ?_⟩
  · calc n.natAbs * 2 ^ (-k - place').toNat
        < 2 ^ (n.natAbs.log2 + 1) * 2 ^ (-k - place').toNat := Nat.mul_lt_mul_of_pos_right hhigh hscale
      _ = 2 ^ (n.natAbs.log2 + 1 + (-k - place').toNat) := (Nat.pow_add _ _ _).symm
      _ ≤ 2 ^ 53 := Nat.pow_le_pow_right (by decide) (by omega)
  · calc 2 ^ 52 = 2 ^ (n.natAbs.log2 + (-k - place').toNat) := by
          congr 1
          omega
      _ = 2 ^ n.natAbs.log2 * 2 ^ (-k - place').toNat := Nat.pow_add _ _ _
      _ ≤ n.natAbs * 2 ^ (-k - place').toNat := Nat.mul_le_mul_right _ hlow

/-- A double is its mantissa in its last place. -/
theorem ofOdd_eq (h : IsDouble (.ofOdd n k hn)) :
    Dyadic.ofOdd n k hn = signed (decide (n < 0)) (fullMantissa n.natAbs (-k)) (placeOf n.natAbs (-k)) := by
  obtain ⟨hle, -⟩ := placed_of_isDouble h
  have hsign : (if decide (n < 0) = true then -1 else 1 : ℚ) * n.natAbs = n := by
    by_cases hneg : n < 0
    · have habs : (n.natAbs : Int) = -n := by omega
      rw [if_pos (decide_eq_true hneg), ← Int.cast_natCast, habs]
      simp
    · have habs : (n.natAbs : Int) = n := by omega
      rw [if_neg (by simpa using hneg), ← Int.cast_natCast, habs, one_mul]
  rw [← Dyadic.toRat_inj, Dyadic.toRat_ofOdd_eq_mul_two_pow, toRat_signed, fullMantissa]
  generalize placeOf n.natAbs (-k) = place at hle ⊢
  push_cast
  rw [← mul_assoc, ← mul_assoc, hsign, mul_assoc, ← zpow_natCast, ← two_zpow_add]
  congr 2
  omega

/-! ## Grids against units -/

variable {i : Interval} {power : Int}

/-- Steps of a grid and units of an interval are counted in a common scale. -/
theorem exists_scale (i : Interval) (power : Int) :
    ∃ scale : ℚ, 0 < scale ∧ gridStep i power = 10 ^ power * scale ∧
      gridScale i power = 2 ^ i.unit * scale := by
  have hten : (10 : ℚ) ^ power.toNat = 10 ^ power * 10 ^ (-power).toNat := by
    rw [← zpow_natCast, ← zpow_natCast, ← zpow_add₀ (by norm_num)]
    congr 1
    omega
  have htwo : (2 : ℚ) ^ i.unit.toNat = 2 ^ i.unit * 2 ^ (-i.unit).toNat := by
    rw [← zpow_natCast, ← zpow_natCast, ← two_zpow_add]
    congr 1
    omega
  refine ⟨10 ^ (-power).toNat * 2 ^ (-i.unit).toNat, by positivity, ?_, ?_⟩
  · rw [gridStep, Nat.shiftLeft_eq, Nat.pow_eq]
    push_cast
    rw [hten, mul_assoc]
  · rw [gridScale, Nat.shiftLeft_eq, Nat.pow_eq]
    push_cast
    rw [htwo]
    ring

theorem gridStep_pos (i : Interval) (power : Int) : 0 < gridStep i power := by
  rw [gridStep, Nat.shiftLeft_eq]
  exact Nat.mul_pos (Nat.pow_pos (by decide)) (Nat.pow_pos (by decide))

theorem gridScale_pos (i : Interval) (power : Int) : 0 < gridScale i power := by
  rw [gridScale, Nat.shiftLeft_eq]
  exact Nat.mul_pos (Nat.pow_pos (by decide)) (Nat.pow_pos (by decide))

theorem grid_le_iff (i : Interval) (power : Int) (d u : Nat) :
    d * gridStep i power ≤ u * gridScale i power ↔ (d : ℚ) * 10 ^ power ≤ u * 2 ^ i.unit := by
  obtain ⟨scale, hscale, hstep, hunit⟩ := exists_scale i power
  rw [← mul_le_mul_iff_left₀ hscale, mul_assoc, mul_assoc, ← hstep, ← hunit]
  exact_mod_cast Iff.rfl

theorem le_grid_iff (i : Interval) (power : Int) (d u : Nat) :
    u * gridScale i power ≤ d * gridStep i power ↔ (u : ℚ) * 2 ^ i.unit ≤ d * 10 ^ power := by
  obtain ⟨scale, hscale, hstep, hunit⟩ := exists_scale i power
  rw [← mul_le_mul_iff_left₀ hscale, mul_assoc, mul_assoc, ← hstep, ← hunit]
  exact_mod_cast Iff.rfl

/-- A point of a grid lies in the interval, strictly if the ends do not belong to it. -/
theorem Interval.holds_iff {d : Nat} :
    i.holds power d = true ↔
      if i.closed = true then
        ((i.centre - i.below : Nat) : ℚ) * 2 ^ i.unit ≤ d * 10 ^ power ∧
          (d : ℚ) * 10 ^ power ≤ (i.centre + i.above : Nat) * 2 ^ i.unit
      else
        ((i.centre - i.below : Nat) : ℚ) * 2 ^ i.unit < d * 10 ^ power ∧
          (d : ℚ) * 10 ^ power < (i.centre + i.above : Nat) * 2 ^ i.unit := by
  unfold Interval.holds
  dsimp only
  split
  · rw [decide_eq_true_iff, le_grid_iff, grid_le_iff]
  · rw [decide_eq_true_iff, ← not_le, ← not_le, grid_le_iff, le_grid_iff, not_le, not_le]

/-! ## The interval of a double -/

variable {odd : Nat} {exponent : Int}

theorem interval_eq (h : placeOf odd exponent ≤ exponent) :
    interval odd exponent =
      { unit := placeOf odd exponent - 2
        centre := 4 * fullMantissa odd exponent
        below := if odd = 1 ∧ finest < placeOf odd exponent then 1 else 2
        above := 2
        closed := decide (exponent ≠ placeOf odd exponent) } := by
  have hdef : lastPlace (odd.log2 + exponent) = placeOf odd exponent := rfl
  have hunit : min exponent (placeOf odd exponent - 2) = placeOf odd exponent - 2 := by omega
  have hhalf : (placeOf odd exponent - 1 - (placeOf odd exponent - 2)).toNat = 1 := by omega
  have hcentre : (exponent - (placeOf odd exponent - 2)).toNat
      = (exponent - placeOf odd exponent).toNat + 2 := by
    omega
  simp only [interval, hdef, hunit, hhalf, hcentre, Nat.shiftLeft_eq, fullMantissa, Nat.pow_add]
  congr 1
  ring

/-- The lower end, the number itself and the upper end, in quarters of the last place. -/
theorem interval_ends (h : placeOf odd exponent ≤ exponent) (quarters : Nat) :
    (quarters : ℚ) * 2 ^ (interval odd exponent).unit = quarters / 4 * 2 ^ placeOf odd exponent := by
  rw [interval_eq h, show placeOf odd exponent - 2 = placeOf odd exponent + -2 by omega, two_zpow_add]
  norm_num
  ring

/-- A power of two is the only number whose odd mantissa is one. -/
theorem odd_eq_one (hodd : odd % 2 = 1) (hpower : fullMantissa odd exponent = 2 ^ 52) : odd = 1 := by
  have hcoprime : Nat.Coprime odd (2 ^ 52) :=
    Nat.Coprime.pow_right 52 (Nat.coprime_two_right.2 (Nat.odd_iff.2 hodd))
  exact hcoprime.eq_one_of_dvd ⟨_, hpower.symm⟩

theorem even_fullMantissa (h : placeOf odd exponent < exponent) : fullMantissa odd exponent % 2 = 0 := by
  obtain ⟨shift, hshift⟩ : ∃ shift, (exponent - placeOf odd exponent).toNat = shift + 1 :=
    ⟨(exponent - placeOf odd exponent).toNat - 1, by omega⟩
  rw [fullMantissa, hshift, Nat.pow_succ, ← Nat.mul_assoc]
  exact Nat.mul_mod_left _ _

/-- How many quarters of the last place the interval reaches down. -/
def quartersBelow (odd : Nat) (exponent : Int) : Nat :=
  if odd = 1 ∧ finest < placeOf odd exponent then 1 else 2

theorem quartersBelow_le (odd : Nat) (exponent : Int) : quartersBelow odd exponent ≤ 2 := by
  unfold quartersBelow
  split <;> decide

/-- The interval by the values of its ends. -/
theorem holds_interval_iff (h : placeOf odd exponent ≤ exponent) (hodd : odd % 2 = 1) {d : Nat} :
    (interval odd exponent).holds power d = true ↔
      if exponent ≠ placeOf odd exponent then
        (fullMantissa odd exponent : ℚ) - quartersBelow odd exponent / 4
            ≤ d * 10 ^ power / 2 ^ placeOf odd exponent ∧
          (d : ℚ) * 10 ^ power / 2 ^ placeOf odd exponent ≤ fullMantissa odd exponent + 1 / 2
      else
        (fullMantissa odd exponent : ℚ) - quartersBelow odd exponent / 4
            < d * 10 ^ power / 2 ^ placeOf odd exponent ∧
          (d : ℚ) * 10 ^ power / 2 ^ placeOf odd exponent < fullMantissa odd exponent + 1 / 2 := by
  have hpos : 0 < fullMantissa odd exponent := Nat.mul_pos (by omega) (Nat.pow_pos (by decide))
  have hbelow := quartersBelow_le odd exponent
  have hlow : ((4 * fullMantissa odd exponent - quartersBelow odd exponent : Nat) : ℚ) / 4
      = fullMantissa odd exponent - quartersBelow odd exponent / 4 := by
    rw [Nat.cast_sub (by omega)]
    push_cast
    ring
  have hhigh : ((4 * fullMantissa odd exponent + 2 : Nat) : ℚ) / 4 = fullMantissa odd exponent + 1 / 2 := by
    push_cast
    ring
  have hplace := two_zpow_pos (placeOf odd exponent)
  rw [Interval.holds_iff, interval_ends h, interval_ends h]
  simp only [interval_eq h, ← quartersBelow.eq_def, hlow, hhigh, decide_eq_true_eq, le_div_iff₀ hplace,
    div_le_iff₀ hplace, lt_div_iff₀ hplace, div_lt_iff₀ hplace]

/-- **What the interval of a double holds is near to the double.** -/
theorem near_of_holds (h : placeOf odd exponent ≤ exponent) (hodd : odd % 2 = 1) {d : Nat}
    (hd : (interval odd exponent).holds power d = true) :
    Near (fullMantissa odd exponent) (placeOf odd exponent) (d * 10 ^ power) := by
  rw [holds_interval_iff h hodd] at hd
  have hbelow : (quartersBelow odd exponent : ℚ) ≤ 2 := mod_cast quartersBelow_le odd exponent
  have hquarter : fullMantissa odd exponent = 2 ^ 52 → finest < placeOf odd exponent →
      quartersBelow odd exponent = 1 :=
    fun hpower hnormal => if_pos ⟨odd_eq_one hodd hpower, hnormal⟩
  generalize quartersBelow odd exponent = below at hd hbelow hquarter
  split at hd
  · next hplace =>
      have heven := even_fullMantissa (lt_of_le_of_ne h (Ne.symm hplace))
      refine ⟨by linarith [hd.1], hd.2, fun _ => heven, fun hpower hnormal => ?_⟩
      simpa [hquarter hpower hnormal] using hd.1
  · refine ⟨by linarith [hd.1], hd.2.le, fun htie => ?_, fun hpower hnormal => ?_⟩
    · rcases htie with htie | htie <;> linarith [hd.1, hd.2]
    · simpa [hquarter hpower hnormal] using hd.1.le

/-! ## A hit on the last grid -/

theorem fullMantissa_one (hnormal : finest < placeOf 1 exponent) : fullMantissa 1 exponent = 2 ^ 52 := by
  have hdef : placeOf 1 exponent = max finest ((Nat.log2 1 : Nat) + exponent - 52) := rfl
  have hlog : Nat.log2 1 = 0 := by decide
  rw [fullMantissa, Nat.one_mul]
  congr 1
  omega

/-- The interval is wider than the steps of a grid on which the number has seventeen digits. -/
theorem wide_interval (hplaced : Placed (fullMantissa odd exponent) (placeOf odd exponent)) :
    (fullMantissa odd exponent : ℚ) < (quartersBelow odd exponent / 4 + 1 / 2) * 10 ^ 16 := by
  unfold quartersBelow
  split
  · next hpower =>
      obtain ⟨rfl, hnormal⟩ := hpower
      rw [fullMantissa_one hnormal]
      norm_num
  · have hlt : (fullMantissa odd exponent : ℚ) < (2 ^ 53 : Nat) := mod_cast hplaced.lt
    norm_num at hlt ⊢
    linarith

/-- One of the two neighbours of the number on such a grid is in the interval. -/
theorem exists_held (h : placeOf odd exponent ≤ exponent) (hodd : odd % 2 = 1)
    (hplaced : Placed (fullMantissa odd exponent) (placeOf odd exponent))
    (hgrid : (10 : ℚ) ^ power * 10 ^ 16 ≤ fullMantissa odd exponent * 2 ^ placeOf odd exponent) {lower : Nat}
    (hlower : (lower : ℚ) * 10 ^ power ≤ fullMantissa odd exponent * 2 ^ placeOf odd exponent)
    (hupper : fullMantissa odd exponent * 2 ^ placeOf odd exponent < ((lower + 1 : Nat) : ℚ) * 10 ^ power) :
    (interval odd exponent).holds power lower = true ∨
      (interval odd exponent).holds power (lower + 1) = true := by
  have hplace := two_zpow_pos (placeOf odd exponent)
  have hwide := wide_interval hplaced
  have hinside : ∀ d : Nat,
      (fullMantissa odd exponent : ℚ) - quartersBelow odd exponent / 4
          < d * 10 ^ power / 2 ^ placeOf odd exponent →
        (d : ℚ) * 10 ^ power / 2 ^ placeOf odd exponent < fullMantissa odd exponent + 1 / 2 →
          (interval odd exponent).holds power d = true := by
    intro d hlow hhigh
    rw [holds_interval_iff h hodd]
    split
    · exact ⟨hlow.le, hhigh.le⟩
    · exact ⟨hlow, hhigh⟩
  have hbelow : (0 : ℚ) ≤ quartersBelow odd exponent := Nat.cast_nonneg _
  rw [← div_le_iff₀ hplace, mul_div_right_comm] at hgrid
  rw [← div_le_iff₀ hplace, mul_div_assoc] at hlower
  rw [← lt_div_iff₀ hplace, mul_div_assoc] at hupper
  simp only [mul_div_assoc] at hinside
  generalize (10 : ℚ) ^ power / 2 ^ placeOf odd exponent = step at hgrid hlower hupper hinside
  by_cases hin : (fullMantissa odd exponent : ℚ) - quartersBelow odd exponent / 4 < lower * step
  · exact Or.inl (hinside lower hin (by linarith))
  · -- the lower neighbour is outside, and then a step from it does not leave the interval again
    have hstep : step < quartersBelow odd exponent / 4 + 1 / 2 :=
      lt_of_mul_lt_mul_right (hgrid.trans_lt hwide) (by norm_num)
    refine Or.inr (hinside (lower + 1) (by linarith) ?_)
    push_cast
    linarith

end SchemaTyping.Binary64
