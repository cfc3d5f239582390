import SchemaTyping.Binary64.Basic

set_option autoImplicit false

/-! # Reading doubles from text

`Binary64.ofText?` reads a decimal numeral with an optional sign, fraction and exponent, or the name of
a special value in any case of letters. Digits may be missing on one side of the point, not on both.
The number read is the double nearest to the decimal; beyond the range it is infinite. -/

namespace SchemaTyping.Binary64

/-- The value of a string of decimal digits. -/
def digitsValue (ds : List Char) : Nat :=
  ds.foldl (fun n c => 10 * n + (c.toNat - '0'.toNat)) 0

/-- The exponent behind the mantissa: nothing, or a letter `e`, an optional sign and digits up to the
    end of the text. -/
def exponent? : List Char → Option Int
  | [] => some 0
  | e :: rest =>
    if e = 'e' ∨ e = 'E' then
      let (negative, ds) := match rest with
        | '-' :: ds => (true, ds)
        | '+' :: ds => (false, ds)
        | ds => (false, ds)
      if ds.isEmpty ∨ !ds.all Char.isDigit then none
      else some (if negative then -(digitsValue ds : Int) else digitsValue ds)
    else none

/-- A numeral without its sign. -/
def unsigned? (negative : Bool) (text : List Char) : Option Binary64 :=
  match (String.ofList text).toLower with
  | "inf" | "infinity" => some (.infinite negative)
  | "nan" => some .nan
  | _ =>
    let whole := text.takeWhile Char.isDigit
    let (fraction, rest) := match text.dropWhile Char.isDigit with
      | '.' :: rest => (rest.takeWhile Char.isDigit, rest.dropWhile Char.isDigit)
      | rest => ([], rest)
    if whole.isEmpty ∧ fraction.isEmpty then none
    else do
      let power ← exponent? rest
      some (ofDecimal negative (digitsValue (whole ++ fraction)) (power - fraction.length))

/-- The double a text denotes. -/
def ofText? (text : String) : Option Binary64 :=
  match text.toList with
  | '-' :: rest => unsigned? true rest
  | '+' :: rest => unsigned? false rest
  | rest => unsigned? false rest

end SchemaTyping.Binary64
