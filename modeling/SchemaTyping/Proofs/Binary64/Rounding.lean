import Mathlib.Algebra.Order.Field.Power
import Mathlib.Algebra.Order.Ring.Rat
import Mathlib.Tactic.FieldSimp
import Mathlib.Tactic.Linarith
import Mathlib.Tactic.NormNum
import Mathlib.Tactic.Positivity
import Mathlib.Tactic.Ring
import SchemaTyping.Binary64.Basic

set_option autoImplicit false

/-! # Rounding to doubles

The doubles are the dyadic fractions with a mantissa of 53 bits and a last place within the range (`IsDouble`);
whatever is rounded becomes one of them or overflows.

A positive double has one mantissa in its own last place (`Placed`). The numbers that are rounded to it are
those near to it (`Near`), however they are written: as a fraction, as a decimal or as an integer
(`ofFraction_of_near`, `ofDecimal_of_near`, `ofInt_of_near`). Numerators and denominators are brought to rational
numbers once, in `ratio_inUnits` and `magnitude_bounds`; the rest is arithmetic on these. -/

namespace SchemaTyping.Binary64

/-! ## Powers of two -/

theorem two_zpow_pos (e : Int) : (0 : ℚ) < 2 ^ e := zpow_pos (by norm_num) e

theorem two_zpow_add (e f : Int) : (2 : ℚ) ^ (e + f) = 2 ^ e * 2 ^ f := zpow_add₀ (by norm_num) e f

theorem two_zpow_lt_iff {e f : Int} : (2 : ℚ) ^ e < 2 ^ f ↔ e < f := zpow_lt_zpow_iff_right₀ (by norm_num)

/-! ## Fractions in units -/

variable {num den : Nat}

theorem inUnits_pos (hden : 0 < den) (unit : Int) : 0 < (inUnits num den unit).2 := by
  unfold inUnits
  split
  · rw [Nat.shiftLeft_eq]
    exact Nat.mul_pos hden (Nat.pow_pos (by decide))
  · exact hden

theorem ratio_inUnits (num den : Nat) (unit : Int) :
    ((inUnits num den unit).1 : ℚ) / (inUnits num den unit).2 = num / den / 2 ^ unit := by
  unfold inUnits
  split
  · next hunit =>
      obtain ⟨n, rfl⟩ := Int.eq_ofNat_of_zero_le hunit
      simp only [Int.toNat_natCast, Nat.shiftLeft_eq, Nat.cast_mul, Nat.cast_pow, Nat.cast_ofNat, zpow_natCast]
      rw [div_div]
  · next hunit =>
      obtain ⟨n, hn⟩ : ∃ n : Nat, unit = -(n : Int) := ⟨(-unit).toNat, by omega⟩
      subst hn
      simp only [neg_neg, Int.toNat_natCast, Nat.shiftLeft_eq, Nat.cast_mul, Nat.cast_pow, Nat.cast_ofNat,
        zpow_neg, zpow_natCast, div_inv_eq_mul]
      rw [div_mul_eq_mul_div]

/-- The bits of numerator and denominator bracket a fraction by two powers of two. -/
theorem log2_bounds (hnum : 0 < num) (hden : 0 < den) :
    (2 : ℚ) ^ ((num.log2 : Int) - den.log2 - 1) ≤ num / den ∧
      (num : ℚ) / den < 2 ^ ((num.log2 : Int) - den.log2 + 1) := by
  have hnumLow : (2 : ℚ) ^ num.log2 ≤ num := mod_cast Nat.log2_self_le (Nat.ne_of_gt hnum)
  have hnumHigh : (num : ℚ) < 2 ^ (num.log2 + 1) := mod_cast Nat.lt_log2_self
  have hdenLow : (2 : ℚ) ^ den.log2 ≤ den := mod_cast Nat.log2_self_le (Nat.ne_of_gt hden)
  have hdenHigh : (den : ℚ) < 2 ^ (den.log2 + 1) := mod_cast Nat.lt_log2_self
  have hpos : (0 : ℚ) < den := mod_cast hden
  constructor
  · rw [le_div_iff₀ hpos]
    calc (2 : ℚ) ^ ((num.log2 : Int) - den.log2 - 1) * den
        ≤ 2 ^ ((num.log2 : Int) - den.log2 - 1) * 2 ^ (den.log2 + 1) := by gcongr
      _ = 2 ^ num.log2 := by
          rw [← zpow_natCast, ← two_zpow_add, ← zpow_natCast]
          congr 1
          push_cast
          ring
      _ ≤ num := hnumLow
  · rw [div_lt_iff₀ hpos]
    calc (num : ℚ) < 2 ^ (num.log2 + 1) := hnumHigh
      _ = 2 ^ ((num.log2 : Int) - den.log2 + 1) * 2 ^ den.log2 := by
          rw [← zpow_natCast, ← zpow_natCast _ den.log2, ← two_zpow_add]
          congr 1
          push_cast
          ring
      _ ≤ 2 ^ ((num.log2 : Int) - den.log2 + 1) * den := by gcongr

/-- The highest power of two below a number brackets it. -/
theorem magnitude_bounds (hnum : 0 < num) (hden : 0 < den) :
    (2 : ℚ) ^ magnitude num den ≤ num / den ∧ (num : ℚ) / den < 2 ^ (magnitude num den + 1) := by
  obtain ⟨hlow, hhigh⟩ := log2_bounds hnum hden
  -- the estimate is right or one too large, which the comparison in its units decides
  have hcompare : (inUnits num den (num.log2 - den.log2)).2 ≤ (inUnits num den (num.log2 - den.log2)).1 ↔
      (2 : ℚ) ^ ((num.log2 : Int) - den.log2) ≤ num / den := by
    have hunit : (0 : ℚ) < (inUnits num den (num.log2 - den.log2)).2 := mod_cast inUnits_pos hden _
    rw [← one_le_div₀ (two_zpow_pos _), ← ratio_inUnits, one_le_div₀ hunit, Nat.cast_le]
  simp only [magnitude]
  split
  · next hle => exact ⟨hcompare.1 hle, hhigh⟩
  · next hlt =>
      rw [sub_add_cancel]
      exact ⟨hlow, not_le.1 fun h => hlt (hcompare.2 h)⟩

/-! ## The nearest integer -/

/-- A quotient is rounded to an integer that is at most a half away, and that is even if it is a half. -/
theorem nearestInteger_eq (hden : 0 < den) {m : Nat} (hlow : (m : ℚ) - 1 / 2 ≤ num / den)
    (hhigh : (num : ℚ) / den ≤ m + 1 / 2)
    (htie : (num : ℚ) / den = m - 1 / 2 ∨ (num : ℚ) / den = m + 1 / 2 → m % 2 = 0) :
    nearestInteger num den = m := by
  have hpos : (0 : ℚ) < den := mod_cast hden
  rw [le_div_iff₀ hpos] at hlow
  rw [div_le_iff₀ hpos] at hhigh
  rw [div_eq_iff hpos.ne', div_eq_iff hpos.ne'] at htie
  have hlow' : 2 * (m * den) ≤ 2 * num + den := by
    have : (2 * (m * den) : ℚ) ≤ 2 * num + den := by linarith
    exact_mod_cast this
  have hhigh' : 2 * num ≤ 2 * (m * den) + den := by
    have : (2 * num : ℚ) ≤ 2 * (m * den) + den := by linarith
    exact_mod_cast this
  have htie' : 2 * (m * den) = 2 * num + den ∨ 2 * num = 2 * (m * den) + den → m % 2 = 0 := by
    refine fun h => htie (h.imp (fun h => ?_) fun h => ?_)
    · have : (2 * (m * den) : ℚ) = 2 * num + den := mod_cast h
      linarith
    · have : (2 * num : ℚ) = 2 * (m * den) + den := mod_cast h
      linarith
  have hsplit : den * (num / den) + num % den = num := Nat.div_add_mod num den
  have hrest : num % den < den := Nat.mod_lt num hden
  simp only [nearestInteger]
  generalize num / den = whole at hsplit ⊢
  generalize num % den = rest at hsplit hrest ⊢
  subst hsplit
  have hcases : m = whole ∨ m = whole + 1 := by
    have hle : whole ≤ m := by nlinarith
    have hle' : m ≤ whole + 1 := by nlinarith
    omega
  rcases hcases with rfl | rfl
  · rw [Nat.mul_comm den] at *
    split_ifs <;> omega
  · rw [Nat.add_mul, Nat.mul_comm den] at *
    split_ifs <;> omega

theorem nearestInteger_le (hden : 0 < den) {bound : Nat} (h : (num : ℚ) / den < bound) :
    nearestInteger num den ≤ bound := by
  rw [div_lt_iff₀ (mod_cast hden)] at h
  have hlt : num / den < bound := Nat.div_lt_of_lt_mul (by rw [Nat.mul_comm]; exact_mod_cast h)
  simp only [nearestInteger]
  split_ifs <;> omega

/-! ## Doubles -/

/-- A finite double: a mantissa of 53 bits in units of a last place that is within the range. -/
def IsDouble (x : Dyadic) : Prop :=
  ∃ mantissa place : Int, mantissa.natAbs < 2 ^ 53 ∧ finest ≤ place ∧ place ≤ coarsest ∧
    x = .ofIntWithPrec mantissa (-place)

theorem toRat_ofIntWithPrec (mantissa place : Int) :
    (Dyadic.ofIntWithPrec mantissa (-place)).toRat = mantissa * 2 ^ place := by
  rw [Dyadic.toRat_ofIntWithPrec_eq_mul_two_pow, neg_neg]

theorem toRat_ofInt (i : Int) : (Dyadic.ofInt i).toRat = i :=
  (toRat_ofIntWithPrec i 0).trans (by rw [zpow_zero, mul_one])

theorem isDouble_zero : IsDouble 0 := ⟨0, 0, by decide, by decide, by decide, rfl⟩

/-- A mantissa that is rounded up to 54 bits is one of 53 bits, one place higher. -/
theorem isDouble_ofIntWithPrec {mantissa place : Int} (hmantissa : mantissa.natAbs ≤ 2 ^ 53)
    (hfinest : finest ≤ place)
    (hcoarsest : place < coarsest ∨ place = coarsest ∧ mantissa.natAbs < 2 ^ 53) :
    IsDouble (.ofIntWithPrec mantissa (-place)) := by
  rcases Nat.lt_or_eq_of_le hmantissa with hlt | hcarry
  · exact ⟨mantissa, place, hlt, hfinest, by omega, rfl⟩
  · obtain ⟨half, rfl⟩ : ∃ half, mantissa = 2 * half := ⟨mantissa / 2, by omega⟩
    refine ⟨half, place + 1, by omega, by omega, by omega, ?_⟩
    rw [← Dyadic.toRat_inj, toRat_ofIntWithPrec, toRat_ofIntWithPrec, two_zpow_add]
    push_cast
    ring

/-- A fraction has at most 53 bits before its last place, or is rounded up to the next power of two. -/
theorem nearestInteger_inUnits_le {place : Int} (hnum : 0 < num) (hden : 0 < den)
    (hplace : lastPlace (magnitude num den) = place) :
    nearestInteger (inUnits num den place).1 (inUnits num den place).2 ≤ 2 ^ 53 := by
  have hbits : ((mantissaBits - 1 : Nat) : Int) = 52 := rfl
  have hmagnitude : magnitude num den + 1 ≤ 53 + place := by
    have : magnitude num den - (mantissaBits - 1 : Nat) ≤ place := hplace ▸ Int.le_max_right _ _
    omega
  refine nearestInteger_le (inUnits_pos hden place) ?_
  rw [ratio_inUnits, div_lt_iff₀ (two_zpow_pos _)]
  calc (num : ℚ) / den < 2 ^ (magnitude num den + 1) := (magnitude_bounds hnum hden).2
    _ ≤ 2 ^ (53 + place) := zpow_le_zpow_right₀ (by norm_num) hmagnitude
    _ = (2 ^ 53 : Nat) * 2 ^ place := by
        rw [two_zpow_add]
        norm_num

/-- What a fraction is rounded to is a double. -/
theorem isDouble_of_ofFraction {negative : Bool} {x : Dyadic} (hden : 0 < den)
    (h : ofFraction negative num den = .finite x) : IsDouble x := by
  unfold ofFraction at h
  split at h
  · cases h
    exact isDouble_zero
  · next hnum =>
      dsimp only at h
      generalize hplace : lastPlace (magnitude num den) = place at h
      have hfinest : finest ≤ place := hplace ▸ Int.le_max_left _ _
      have hmantissa := nearestInteger_inUnits_le (Nat.pos_of_ne_zero hnum) hden hplace
      split at h
      · next hcoarsest =>
          cases h
          have habs : ∀ m : Nat, (if negative then -(m : Int) else m).natAbs = m := by
            intro m
            split <;> omega
          refine isDouble_ofIntWithPrec (by rwa [habs]) hfinest ?_
          rw [habs]
          exact hcoarsest
      · cases h

theorem isDouble_of_ofDecimal {negative : Bool} {digits : Nat} {exponent : Int} {x : Dyadic}
    (h : ofDecimal negative digits exponent = .finite x) : IsDouble x := by
  unfold ofDecimal at h
  split at h
  · cases h
    exact isDouble_zero
  · dsimp only at h
    split at h
    · cases h
    split at h
    · cases h
      exact isDouble_zero
    split at h
    · exact isDouble_of_ofFraction Nat.one_pos h
    · exact isDouble_of_ofFraction (Nat.pow_pos (by decide)) h

theorem isDouble_of_ofInt {i : Int} {x : Dyadic} (h : ofInt i = .finite x) : IsDouble x := by
  unfold ofInt at h
  split at h
  · next hle =>
      cases h
      have hfinest : finest ≤ 0 := by decide
      exact isDouble_ofIntWithPrec hle hfinest (Or.inl (by decide))
  · exact isDouble_of_ofFraction Nat.one_pos h

theorem magnitude_le_log2 (num den : Nat) : magnitude num den ≤ num.log2 := by
  unfold magnitude
  dsimp only
  split <;> omega

/-- An integer of 64 bits is far from the largest double. -/
theorem finite_ofInt {i : Int} (h : i.natAbs ≤ 1 <<< 64) : ∃ x, ofInt i = .finite x := by
  have hlog : i.natAbs.log2 ≤ 64 := by
    rcases Nat.eq_zero_or_pos i.natAbs with hzero | hpos
    · rw [hzero]
      decide
    · exact Nat.lt_succ_iff.1 ((Nat.log2_lt (Nat.ne_of_gt hpos)).2 (by omega))
  have hmagnitude := magnitude_le_log2 i.natAbs 1
  -- 64 bits need a last place of at most twelve bits, which is finer than the coarsest
  have hbits : ((mantissaBits - 1 : Nat) : Int) = 52 := rfl
  have hfinest : finest = -1074 := rfl
  have hcoarsest : coarsest = 971 := rfl
  have hunit : lastPlace (magnitude i.natAbs 1) < coarsest := by
    unfold lastPlace
    omega
  unfold ofInt ofFraction
  split
  · exact ⟨_, rfl⟩
  split
  · exact ⟨_, rfl⟩
  · exact ⟨_, if_pos (Or.inl hunit)⟩

/-! ## What is rounded to a double -/

/-- A mantissa and a last place as a double has them: the mantissa is full unless the place is the finest. -/
structure Placed (mantissa : Nat) (place : Int) : Prop where
  pos : 0 < mantissa
  lt : mantissa < 2 ^ 53
  finest_le : finest ≤ place
  le_coarsest : place ≤ coarsest
  full : finest < place → 2 ^ 52 ≤ mantissa

/-- At most half a last place away, or only a quarter below a power of two, where the doubles become denser.
    A half is at most allowed if the mantissa is even. -/
structure Near (mantissa : Nat) (place : Int) (q : ℚ) : Prop where
  low : (mantissa : ℚ) - 1 / 2 ≤ q / 2 ^ place
  high : q / 2 ^ place ≤ mantissa + 1 / 2
  tie : q / 2 ^ place = mantissa - 1 / 2 ∨ q / 2 ^ place = mantissa + 1 / 2 → mantissa % 2 = 0
  quarter : mantissa = 2 ^ 52 → finest < place → (mantissa : ℚ) - 1 / 4 ≤ q / 2 ^ place

variable {mantissa : Nat} {place : Int}

/-- The double with this sign, mantissa and last place. -/
def signed (negative : Bool) (mantissa : Nat) (place : Int) : Dyadic :=
  .ofIntWithPrec (if negative then -(mantissa : Int) else mantissa) (-place)

theorem toRat_signed (negative : Bool) (mantissa : Nat) (place : Int) :
    (signed negative mantissa place).toRat = (if negative then -1 else 1) * (mantissa * 2 ^ place) := by
  rw [signed, toRat_ofIntWithPrec]
  cases negative <;> simp

theorem Near.pos (h : Placed mantissa place) {q : ℚ} (hnear : Near mantissa place q) : 0 < q := by
  have hplace := two_zpow_pos place
  have hlow := hnear.low
  have hone : (1 : ℚ) ≤ mantissa := mod_cast h.pos
  rw [le_div_iff₀ hplace] at hlow
  exact lt_of_lt_of_le (mul_pos (by linarith) hplace) hlow

theorem Near.num_pos (h : Placed mantissa place) (hnear : Near mantissa place (num / den)) : 0 < num := by
  refine Nat.pos_of_ne_zero fun hnum => ?_
  have hpos := hnear.pos h
  rw [hnum, Nat.cast_zero, zero_div] at hpos
  exact lt_irrefl 0 hpos

theorem Near.magnitude_lt (h : Placed mantissa place) (hden : 0 < den)
    (hnear : Near mantissa place (num / den)) : magnitude num den < 53 + place := by
  obtain ⟨hlow, -⟩ := magnitude_bounds (hnear.num_pos h) hden
  have hmantissa : (mantissa : ℚ) + 1 ≤ 2 ^ 53 := mod_cast h.lt
  have hhigh := hnear.high
  rw [div_le_iff₀ (two_zpow_pos place)] at hhigh
  rw [← two_zpow_lt_iff, two_zpow_add]
  calc (2 : ℚ) ^ magnitude num den ≤ num / den := hlow
    _ ≤ (mantissa + 1 / 2) * 2 ^ place := hhigh
    _ < 2 ^ (53 : Int) * 2 ^ place := by
        refine mul_lt_mul_of_pos_right ?_ (two_zpow_pos place)
        norm_num at hmantissa ⊢
        linarith

/-- A double with numbers below the full mantissas near to it is a power of two. -/
theorem Near.eq_power (h : Placed mantissa place) (hnormal : finest < place) {q : ℚ}
    (hnear : Near mantissa place q) (hbelow : q / 2 ^ place < 2 ^ 52) : mantissa = 2 ^ 52 := by
  refine Nat.le_antisymm (Nat.lt_succ_iff.1 ?_) (h.full hnormal)
  have hlow := hnear.low
  have : (mantissa : ℚ) < (2 ^ 52 : Nat) + 1 := by
    push_cast
    linarith
  exact_mod_cast this

theorem Near.le_magnitude (h : Placed mantissa place) (hden : 0 < den)
    (hnear : Near mantissa place (num / den)) (hpower : mantissa = 2 ^ 52) (hnormal : finest < place) :
    51 + place ≤ magnitude num den := by
  obtain ⟨-, hhigh⟩ := magnitude_bounds (hnear.num_pos h) hden
  have hquarter := hnear.quarter hpower hnormal
  rw [hpower, le_div_iff₀ (two_zpow_pos place)] at hquarter
  refine Int.lt_add_one_iff.1 ?_
  rw [← two_zpow_lt_iff, two_zpow_add]
  calc (2 : ℚ) ^ (51 : Int) * 2 ^ place < ((2 ^ 52 : Nat) - 1 / 4) * 2 ^ place :=
        mul_lt_mul_of_pos_right (by norm_num) (two_zpow_pos place)
    _ ≤ num / den := hquarter
    _ < 2 ^ (magnitude num den + 1) := hhigh

/-- The fraction has the last place of the double, or the one below it if it lies below a power of two. -/
theorem lastPlace_of_near (h : Placed mantissa place) (hden : 0 < den)
    (hnear : Near mantissa place (num / den)) :
    lastPlace (magnitude num den) = place ∨
      mantissa = 2 ^ 52 ∧ finest < place ∧ lastPlace (magnitude num den) = place - 1 ∧
        (num : ℚ) / den / 2 ^ place < 2 ^ 52 := by
  have hbits : ((mantissaBits - 1 : Nat) : Int) = 52 := rfl
  have hupper := hnear.magnitude_lt h hden
  have hfinest := h.finest_le
  unfold lastPlace
  by_cases hfull : 52 + place ≤ magnitude num den
  · exact Or.inl (by omega)
  by_cases hsubnormal : place = finest
  · exact Or.inl (by omega)
  have hnormal : finest < place := by omega
  have hbelow : (num : ℚ) / den / 2 ^ place < 2 ^ 52 := by
    rw [div_lt_iff₀ (two_zpow_pos place)]
    calc (num : ℚ) / den < 2 ^ (magnitude num den + 1) := (magnitude_bounds (hnear.num_pos h) hden).2
      _ ≤ 2 ^ (52 + place) := zpow_le_zpow_right₀ (by norm_num) (by omega)
      _ = 2 ^ 52 * 2 ^ place := by
          rw [two_zpow_add]
          norm_num
  have hpower := hnear.eq_power h hnormal hbelow
  have hlower := hnear.le_magnitude h hden hpower hnormal
  exact Or.inr ⟨hpower, hnormal, by omega, hbelow⟩

theorem Near.nearestInteger_eq (hden : 0 < den) (hnear : Near mantissa place (num / den)) :
    nearestInteger (inUnits num den place).1 (inUnits num den place).2 = mantissa := by
  refine Binary64.nearestInteger_eq (inUnits_pos hden place) ?_ ?_ ?_ <;> rw [ratio_inUnits]
  · exact hnear.low
  · exact hnear.high
  · exact hnear.tie

/-- Below a power of two, one place lower, the mantissa has one bit more, and is rounded up to that power. -/
theorem Near.nearestInteger_carry (hden : 0 < den) (hnear : Near mantissa place (num / den))
    (hpower : mantissa = 2 ^ 52) (hnormal : finest < place) (hbelow : (num : ℚ) / den / 2 ^ place < 2 ^ 52) :
    nearestInteger (inUnits num den (place - 1)).1 (inUnits num den (place - 1)).2 = 2 ^ 53 := by
  have hhalved : (num : ℚ) / den / 2 ^ (place - 1) = num / den / 2 ^ place * 2 := by
    rw [zpow_sub_one₀ (by norm_num)]
    field_simp
  have hquarter := hnear.quarter hpower hnormal
  rw [hpower] at hquarter
  refine Binary64.nearestInteger_eq (inUnits_pos hden _) ?_ ?_ (fun _ => rfl) <;>
    rw [ratio_inUnits, hhalved]
  · norm_num at hquarter ⊢
    linarith
  · norm_num at hbelow ⊢
    linarith

theorem signed_carry (negative : Bool) (place : Int) :
    signed negative (2 ^ 53) (place - 1) = signed negative (2 ^ 52) place := by
  rw [← Dyadic.toRat_inj, toRat_signed, toRat_signed, zpow_sub_one₀ (by norm_num)]
  push_cast
  ring

/-- **A fraction near to a double is rounded to it.** -/
theorem ofFraction_of_near (h : Placed mantissa place) (hden : 0 < den)
    (hnear : Near mantissa place (num / den)) (negative : Bool) :
    ofFraction negative num den = .finite (signed negative mantissa place) := by
  have hle := h.le_coarsest
  have hlt := h.lt
  have hbits : 1 <<< mantissaBits = 2 ^ 53 := rfl
  unfold ofFraction
  rw [if_neg (Nat.ne_of_gt (hnear.num_pos h))]
  rcases lastPlace_of_near h hden hnear with hplace | ⟨hpower, hnormal, hplace, hbelow⟩
  · simp only [hplace, hnear.nearestInteger_eq hden]
    exact if_pos (by omega)
  · simp only [hplace, hnear.nearestInteger_carry hden hpower hnormal hbelow]
    rw [if_pos (Or.inl (by omega)), hpower]
    exact congrArg finite (signed_carry negative place)

/-- A double is near to itself. -/
theorem near_self (mantissa : Nat) (place : Int) : Near mantissa place (mantissa * 2 ^ place) := by
  have hself : (mantissa : ℚ) * 2 ^ place / 2 ^ place = mantissa :=
    mul_div_cancel_right₀ _ (two_zpow_pos place).ne'
  refine ⟨?_, ?_, fun htie => ?_, fun _ _ => ?_⟩ <;> rw [hself] at *
  · linarith
  · linarith
  · rcases htie with htie | htie <;> linarith
  · linarith

/-! ## Decimals and integers -/

theorem toDigits_bounds {n : Nat} (hn : 0 < n) :
    (10 : ℚ) ^ (((Nat.toDigits 10 n).length : Int) - 1) ≤ n ∧
      (n : ℚ) < 10 ^ ((Nat.toDigits 10 n).length : Int) := by
  have hlength : 0 < (Nat.toDigits 10 n).length := Nat.length_toDigits_pos
  constructor
  · rw [show ((Nat.toDigits 10 n).length : Int) - 1 = ((Nat.toDigits 10 n).length - 1 : Nat) by omega,
      zpow_natCast]
    norm_cast
    rcases Nat.eq_zero_or_pos ((Nat.toDigits 10 n).length - 1) with hone | hmany
    · rwa [hone, Nat.pow_zero]
    · by_contra hlt
      have := (Nat.length_toDigits_le_iff (by decide) hmany).2 (Nat.lt_of_not_le hlt)
      omega
  · rw [zpow_natCast]
    norm_cast
    exact (Nat.length_toDigits_le_iff (by decide) hlength).1 (Nat.le_refl _)

theorem least_power : (10 : ℚ) ^ (-330 : Int) ≤ 1 / 2 * 2 ^ (-1074 : Int) := by
  have hpowers : 2 * 2 ^ 1074 ≤ 10 ^ 330 := by decide +kernel
  rw [zpow_neg, zpow_neg, one_div, ← mul_inv, inv_le_inv₀ (by positivity) (by positivity)]
  exact_mod_cast hpowers

theorem greatest_power : (2 : ℚ) ^ 53 * 2 ^ (971 : Int) ≤ 10 ^ (310 : Int) := by
  have hpowers : 2 ^ 53 * 2 ^ 971 ≤ 10 ^ 310 := by decide +kernel
  exact_mod_cast hpowers

/-- Numbers near to a double are within the range of the doubles. -/
theorem Near.bounds (h : Placed mantissa place) {q : ℚ} (hnear : Near mantissa place q) :
    (10 : ℚ) ^ (-330 : Int) ≤ q ∧ q < 10 ^ (310 : Int) := by
  have hpos := two_zpow_pos place
  have hlow := hnear.low
  have hhigh := hnear.high
  rw [le_div_iff₀ hpos] at hlow
  rw [div_le_iff₀ hpos] at hhigh
  have hone : (1 : ℚ) ≤ mantissa := mod_cast h.pos
  have hmantissa : (mantissa : ℚ) + 1 ≤ 2 ^ 53 := mod_cast h.lt
  have hfinest : (2 : ℚ) ^ (-1074 : Int) ≤ 2 ^ place := zpow_le_zpow_right₀ (by norm_num) h.finest_le
  have hcoarsest : (2 : ℚ) ^ place ≤ 2 ^ (971 : Int) := zpow_le_zpow_right₀ (by norm_num) h.le_coarsest
  constructor
  · calc (10 : ℚ) ^ (-330 : Int) ≤ 1 / 2 * 2 ^ (-1074 : Int) := least_power
      _ ≤ (mantissa - 1 / 2) * 2 ^ place :=
          mul_le_mul (by linarith only [hone]) hfinest (two_zpow_pos _).le (by linarith only [hone])
      _ ≤ q := hlow
  · calc q ≤ (mantissa + 1 / 2) * 2 ^ place := hhigh
      _ < 2 ^ 53 * 2 ^ place := mul_lt_mul_of_pos_right (by linarith only [hmantissa]) hpos
      _ ≤ 2 ^ 53 * 2 ^ (971 : Int) := mul_le_mul_of_nonneg_left hcoarsest (by norm_num)
      _ ≤ 10 ^ (310 : Int) := greatest_power

theorem Near.digits_ne_zero (h : Placed mantissa place) {digits : Nat} {exponent : Int}
    (hnear : Near mantissa place (digits * 10 ^ exponent)) : digits ≠ 0 := by
  rintro rfl
  have hpos := hnear.pos h
  rw [Nat.cast_zero, zero_mul] at hpos
  exact lt_irrefl 0 hpos

/-- The highest power of ten in such a decimal is within the range that is rounded at all. -/
theorem Near.power_bounds (h : Placed mantissa place) {digits : Nat} {exponent : Int}
    (hnear : Near mantissa place (digits * 10 ^ exponent)) :
    underflowPower ≤ (Nat.toDigits 10 digits).length + exponent ∧
      (Nat.toDigits 10 digits).length + exponent ≤ overflowPower := by
  obtain ⟨hlow, hhigh⟩ := hnear.bounds h
  obtain ⟨hleast, hmost⟩ := toDigits_bounds (Nat.pos_of_ne_zero (hnear.digits_ne_zero h))
  have hscale : (0 : ℚ) < 10 ^ exponent := zpow_pos (by norm_num) _
  generalize ((Nat.toDigits 10 digits).length : Int) = length at hleast hmost ⊢
  unfold underflowPower overflowPower
  constructor
  · by_contra hpower
    refine absurd hlow (not_le.2 ?_)
    calc (digits : ℚ) * 10 ^ exponent < 10 ^ length * 10 ^ exponent := by gcongr
      _ = 10 ^ (length + exponent) := (zpow_add₀ (by norm_num) _ _).symm
      _ ≤ 10 ^ (-330 : Int) := zpow_le_zpow_right₀ (by norm_num) (by omega)
  · by_contra hpower
    refine absurd hhigh (not_lt.2 ?_)
    calc (10 : ℚ) ^ (310 : Int) ≤ 10 ^ (length - 1 + exponent) :=
          zpow_le_zpow_right₀ (by norm_num) (by omega)
      _ = 10 ^ (length - 1) * 10 ^ exponent := zpow_add₀ (by norm_num) _ _
      _ ≤ digits * 10 ^ exponent := by gcongr

/-- **A decimal near to a double is rounded to it.** -/
theorem ofDecimal_of_near (h : Placed mantissa place) {digits : Nat} {exponent : Int}
    (hnear : Near mantissa place (digits * 10 ^ exponent)) (negative : Bool) :
    ofDecimal negative digits exponent = .finite (signed negative mantissa place) := by
  obtain ⟨hunderflow, hoverflow⟩ := hnear.power_bounds h
  unfold ofDecimal
  simp only [if_neg (hnear.digits_ne_zero h), if_neg (Int.not_lt.2 hunderflow),
    if_neg (Int.not_lt.2 hoverflow)]
  split
  · next hexponent =>
      obtain ⟨n, rfl⟩ := Int.eq_ofNat_of_zero_le hexponent
      refine ofFraction_of_near h Nat.one_pos ?_ negative
      simpa using hnear
  · next hexponent =>
      obtain ⟨n, hn⟩ : ∃ n : Nat, exponent = -(n : Int) := ⟨(-exponent).toNat, by omega⟩
      subst hn
      refine ofFraction_of_near h (Nat.pow_pos (by decide)) ?_ negative
      simpa [div_eq_mul_inv] using hnear

/-- An integer that fits the mantissa is a double. -/
theorem exists_placed_of_le {n : Nat} (hn : 0 < n) (hle : n ≤ 2 ^ 53) :
    ∃ mantissa place, Placed mantissa place ∧ (n : ℚ) = mantissa * 2 ^ place := by
  rcases Nat.lt_or_eq_of_le hle with hlt | rfl
  · have hlog : n.log2 ≤ 52 := Nat.lt_succ_iff.1 ((Nat.log2_lt (Nat.ne_of_gt hn)).2 hlt)
    have hlow : 2 ^ n.log2 ≤ n := Nat.log2_self_le (Nat.ne_of_gt hn)
    have hhigh : n < 2 ^ (n.log2 + 1) := Nat.lt_log2_self
    obtain ⟨shift, hshift⟩ := Nat.exists_eq_add_of_le hlog
    have hscale : 0 < 2 ^ shift := Nat.pow_pos (by decide)
    refine ⟨n * 2 ^ shift, -(shift : Int), ⟨Nat.mul_pos hn hscale, ?_, ?_, ?_, fun _ => ?_⟩, ?_⟩
    · calc n * 2 ^ shift < 2 ^ (n.log2 + 1) * 2 ^ shift := Nat.mul_lt_mul_of_pos_right hhigh hscale
        _ = 2 ^ 53 := by rw [← Nat.pow_add]; congr 1; omega
    · unfold finest; omega
    · unfold coarsest; omega
    · calc 2 ^ 52 = 2 ^ n.log2 * 2 ^ shift := by rw [← Nat.pow_add, ← hshift]
        _ ≤ n * 2 ^ shift := Nat.mul_le_mul_right _ hlow
    · rw [zpow_neg, zpow_natCast]
      push_cast
      rw [mul_inv_cancel_right₀ (by positivity)]
  · exact ⟨2 ^ 52, 1, ⟨by decide, by decide, by decide, by decide, fun _ => by decide⟩, by norm_num⟩

/-- **An integer near to a double is rounded to it.** -/
theorem ofInt_of_near (h : Placed mantissa place) {value : Nat} (hnear : Near mantissa place value)
    (negative : Bool) :
    ofInt (if negative then -(value : Int) else value) = .finite (signed negative mantissa place) := by
  have hpos : 0 < value := mod_cast hnear.pos h
  have hratio : (value : ℚ) / (1 : Nat) = value := by rw [Nat.cast_one, div_one]
  have hround := ofFraction_of_near h Nat.one_pos (hratio ▸ hnear) negative
  have habs : (if negative then -(value : Int) else value).natAbs = value := by cases negative <;> simp
  have hsign : decide ((if negative then -(value : Int) else value) < 0) = negative := by
    cases negative with
    | false => simp
    | true => simpa using hpos
  unfold ofInt
  rw [habs, hsign]
  split
  · next hle =>
      -- the integer is a double, to which it is rounded as well
      obtain ⟨mantissa', place', h', hvalue⟩ := exists_placed_of_le hpos hle
      have hnear' := near_self mantissa' place'
      have hexact := ofFraction_of_near h' Nat.one_pos (hratio.trans hvalue ▸ hnear') negative
      rw [← hround, hexact, finite.injEq, ← Dyadic.toRat_inj, toRat_signed, toRat_ofInt, ← hvalue]
      cases negative <;> simp
  · exact hround

end SchemaTyping.Binary64
