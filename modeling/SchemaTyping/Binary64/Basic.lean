set_option autoImplicit false

/-! # Double-precision numbers, exactly

A finite double-precision number is kept as the dyadic fraction it stands for. Rounding, comparing
and printing are then arithmetic on integers, and two numbers are equal exactly when they have the
same value: there is one zero and one not-a-number.

* `Binary64.ofFraction` rounds a quotient of integers to the nearest double, a half to the even
  neighbour, and overflows to infinity;
* `Binary64.ofInt` and `Binary64.ofDecimal` are its two uses. -/

namespace SchemaTyping

/-- A double-precision number by value. -/
inductive Binary64 where
  | finite (value : Dyadic)
  | infinite (negative : Bool)
  | nan
  deriving DecidableEq

namespace Binary64

/-- Digits in the mantissa of a double. -/
def mantissaBits : Nat := 53

/-- The exponent of the finest last place: doubles nearest to zero are multiples of `2 ^ finest`. -/
def finest : Int := -1074

/-- The exponent of the coarsest last place of a finite double. -/
def coarsest : Int := 971

/-- The quotient `num / den` rounded to an integer; a half goes to the even neighbour. -/
def nearestInteger (num den : Nat) : Nat :=
  let whole := num / den
  let rest := num % den
  if 2 * rest < den then whole
  else if den < 2 * rest then whole + 1
  else if whole % 2 = 0 then whole
  else whole + 1

/-- The quotient `num / den` counted in units of `2 ^ unit`, as a numerator and a denominator. -/
def inUnits (num den : Nat) (unit : Int) : Nat × Nat :=
  if 0 ≤ unit then (num, den <<< unit.toNat) else (num <<< (-unit).toNat, den)

/-- The exponent of the highest power of two that is at most `num / den`, both positive. -/
def magnitude (num den : Nat) : Int :=
  let estimate : Int := (num.log2 : Int) - (den.log2 : Int)
  let (n, d) := inUnits num den estimate
  if d ≤ n then estimate else estimate - 1

/-- The exponent of the last place that a double of this magnitude has. -/
def lastPlace (magnitude : Int) : Int := max finest (magnitude - (mantissaBits - 1 : Nat))

/-- The double nearest to `± num / den`. -/
def ofFraction (negative : Bool) (num den : Nat) : Binary64 :=
  if num = 0 then .finite 0
  else
    let unit := lastPlace (magnitude num den)
    let (n, d) := inUnits num den unit
    let mantissa := nearestInteger n d
    if unit < coarsest ∨ (unit = coarsest ∧ mantissa < 1 <<< mantissaBits) then
      .finite (.ofIntWithPrec (if negative then -(mantissa : Int) else mantissa) (-unit))
    else .infinite negative

/-- The double nearest to an integer. One that fits the mantissa is a double itself. -/
def ofInt (i : Int) : Binary64 :=
  if i.natAbs ≤ 1 <<< mantissaBits then .finite (.ofInt i)
  else ofFraction (decide (i < 0)) i.natAbs 1

/-- Decimal numbers from this power of ten on are beyond the largest double. -/
def overflowPower : Int := 310

/-- Decimal numbers below this power of ten are nearer to zero than to any other double. -/
def underflowPower : Int := -330

/-- The double nearest to `± digits · 10 ^ exponent`. -/
def ofDecimal (negative : Bool) (digits : Nat) (exponent : Int) : Binary64 :=
  if digits = 0 then .finite 0
  else
    let power := ((Nat.toDigits 10 digits).length : Int) + exponent
    if overflowPower < power then .infinite negative
    else if power < underflowPower then .finite 0
    else if 0 ≤ exponent then ofFraction negative (digits * Nat.pow 10 exponent.toNat) 1
    else ofFraction negative digits (Nat.pow 10 (-exponent).toNat)

/-- The integer a dyadic fraction is, if it is one. -/
def integer? : Dyadic → Option Int
  | .zero => some 0
  | .ofOdd n k _ => if k ≤ 0 then some (n <<< (-k).toNat) else none

end Binary64

end SchemaTyping
