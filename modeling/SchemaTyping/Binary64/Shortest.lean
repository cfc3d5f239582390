import SchemaTyping.Decimal
import SchemaTyping.Binary64.Basic

set_option autoImplicit false

/-! # The shortest decimal of a double

Every double is the nearest one to a whole interval of real numbers. `Binary64.shortest` finds the
decimal with the fewest digits in that interval and, among those, the nearest to the double.

It searches the decimal grids from coarse to fine. On one grid only the two neighbours of the number
can be the nearest point, so they alone are tested, by comparing integers. Two neighbours at the same
distance are a tie, which each printed format decides for itself (`Tie`). -/

namespace SchemaTyping.Binary64

/-- Which of two equally near decimals is written. -/
inductive Tie where
  /-- The larger one. -/
  | up
  /-- The one whose last digit is even. -/
  | even
  deriving DecidableEq

/-- The reals that round to one double, counted in units of `2 ^ unit`. -/
structure Interval where
  unit : Int
  /-- The double itself. -/
  centre : Nat
  below : Nat
  above : Nat
  /-- The two ends round to the double as well. -/
  closed : Bool
  deriving DecidableEq

/-- The interval of the double `mantissa · 2 ^ exponent`, whose mantissa is odd. Half a last place
    lies on either side, but only a quarter below a power of two, where the doubles become denser. A
    half goes to the even neighbour, so the ends belong to the numbers with an even last place. -/
def interval (mantissa : Nat) (exponent : Int) : Interval :=
  let place := lastPlace (mantissa.log2 + exponent)
  let unit := min exponent (place - 2)
  let half := 1 <<< (place - 1 - unit).toNat
  { unit
    centre := mantissa <<< (exponent - unit).toNat
    below := if mantissa = 1 ∧ finest < place then half / 2 else half
    above := half
    closed := decide (exponent ≠ place) }

/-- The decimal grid `10 ^ power` against the unit of an interval: `d` steps of the grid are `u` units
    exactly when `d * step = u * scale`. -/
def gridStep (i : Interval) (power : Int) : Nat :=
  Nat.pow 10 power.toNat <<< (-i.unit).toNat

@[inherit_doc gridStep]
def gridScale (i : Interval) (power : Int) : Nat :=
  Nat.pow 10 (-power).toNat <<< i.unit.toNat

/-- Does the point `d · 10 ^ power` lie in the interval? -/
def Interval.holds (i : Interval) (power : Int) (d : Nat) : Bool :=
  let point := d * gridStep i power
  let low := (i.centre - i.below) * gridScale i power
  let high := (i.centre + i.above) * gridScale i power
  if i.closed then decide (low ≤ point ∧ point ≤ high) else decide (low < point ∧ point < high)

/-- The nearest point of one grid in the interval, if the grid has a point there. -/
def Interval.nearest? (i : Interval) (tie : Tie) (power : Int) : Option Nat :=
  let step := gridStep i power
  let centre := i.centre * gridScale i power
  let lower := centre / step
  let upper := lower + 1
  match i.holds power lower, i.holds power upper with
  | true, false => some lower
  | false, true => some upper
  | false, false => none
  | true, true =>
    let down := centre - lower * step
    let up := upper * step - centre
    if down < up then some lower
    else if up < down then some upper
    else match tie with
      | .up => some upper
      | .even => if lower % 2 = 0 then some lower else some upper

/-- The first hit on the grids `10 ^ power`, `10 ^ (power - 1)`, …; `grids` of them are finer than the
    first. The number itself is cut to the last grid if none has a hit. -/
def Interval.search (i : Interval) (tie : Tie) : Nat → Int → Decimal
  | 0, power =>
    ⟨(i.nearest? tie power).getD (i.centre * gridScale i power / gridStep i power), power⟩
  | grids + 1, power =>
    match i.nearest? tie power with
    | some d => ⟨d, power⟩
    | none => i.search tie grids (power - 1)

/-- The number of digits before the decimal point of a number, negative for zeros behind it. -/
def Interval.point (i : Interval) : Int :=
  let num := i.centre <<< i.unit.toNat
  let den := 1 <<< (-i.unit).toNat
  if den ≤ num then (Nat.toDigits 10 (num / den)).length
  else 1 - (Nat.toDigits 10 (den / num)).length

/-- Seventeen digits tell every double from its neighbours. -/
def maxDigits : Nat := 17

/-- The shortest decimal that reads back as `mantissa · 2 ^ exponent`, whose mantissa is odd. -/
def shortest (tie : Tie) (mantissa : Nat) (exponent : Int) : Decimal :=
  let i := interval mantissa exponent
  i.search tie maxDigits i.point

end SchemaTyping.Binary64
