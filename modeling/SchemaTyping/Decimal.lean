set_option autoImplicit false

/-! # Decimal numerals

`Decimal` is a numeral written with decimal digits: a whole number of digits and a power of ten.
This file lays such a numeral out as text, in the two ways the library's outputs need:

* `Decimal.plain` never uses an exponent;
* `Decimal.scientific` puts the point behind the first digit and always writes an exponent.

Which of the two is used, and where a fraction mark is kept, is decided by the format that prints
the number (`Literal.shown`, `Json.compact`), not here. -/

namespace SchemaTyping

/-- The number `digits · 10 ^ exponent`. -/
structure Decimal where
  digits : Nat
  exponent : Int
  deriving DecidableEq

namespace Decimal

/-- `n` copies of the digit zero. -/
def zeros (n : Nat) : List Char := List.replicate n '0'

/-- The digits of the numeral, most significant first. -/
def numeral (d : Decimal) : List Char := Nat.toDigits 10 d.digits

/-- How many digits stand before the decimal point. It is zero or negative when the number is below
    one: the numeral then starts with that many zeros behind the point. -/
def point (d : Decimal) : Int := d.numeral.length + d.exponent

/-- Positional layout: `1200`, `1.25`, `0.00125`. -/
def plain (d : Decimal) : List Char :=
  if 0 ≤ d.exponent then d.numeral ++ zeros d.exponent.toNat
  else if 0 < d.point then
    d.numeral.take d.point.toNat ++ '.' :: d.numeral.drop d.point.toNat
  else '0' :: '.' :: zeros (-d.point).toNat ++ d.numeral

/-- Layout with an exponent, whose sign is always written: `1e+16`, `1.25e-7`. -/
def scientific (d : Decimal) : List Char :=
  let power := d.point - 1
  let sign := if power < 0 then '-' else '+'
  let mantissa := match d.numeral with
    | [] => []
    | [c] => [c]
    | c :: rest => c :: '.' :: rest
  mantissa ++ 'e' :: sign :: Nat.toDigits 10 power.natAbs

end Decimal

end SchemaTyping
