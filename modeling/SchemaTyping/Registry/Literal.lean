import SchemaTyping.Json.Writing

set_option autoImplicit false

/-! # Literals

A value holder lists enumerable values. The scalar ones are literals, which can stand in a type; lists
and objects cannot. Two literals are equal when they are the same value: numbers are compared as doubles,
so `1` and `1.0` are one literal, and so are `0` and `-0`. -/

namespace SchemaTyping

/-- A scalar value that can stand in a type. -/
inductive Literal where
  | null
  | boolean (value : Bool)
  | number (value : Binary64)
  | text (value : String)
  deriving DecidableEq

namespace Literal

/-- The literal a JSON value is, unless it is a list or an object. -/
def ofJson? : Json → Option Literal
  | .null => some .null
  | .boolean b => some (.boolean b)
  | .number n => some (.number n.toBinary64)
  | .text s => some (.text s)
  | .list _ | .object _ => none

/-- Integers below this bound in size are written digit by digit. -/
def integerBound : Nat := 1 <<< 53

/-- A finite number as a literal: an integer in plain digits, anything else as the shortest decimal, a tie
    going to the larger one. There is never an exponent. -/
def finiteChars (x : Dyadic) : List Char :=
  match Binary64.integer? x with
  | some i => if i.natAbs < integerBound then (toString i).toList else shortestChars x
  | none => shortestChars x
where
  shortestChars : Dyadic → List Char
    | .zero => ['0']
    | .ofOdd n k _ =>
      (if n < 0 then ['-'] else []) ++ (Binary64.shortest .up n.natAbs (-k)).plain

/-- A number as a literal. -/
def numberChars : Binary64 → List Char
  | .finite x => finiteChars x
  | .infinite false => ['i', 'n', 'f']
  | .infinite true => ['-', 'i', 'n', 'f']
  | .nan => ['N', 'a', 'N']

/-- The text of a literal: that of JSON, with integral numbers written without a fraction. -/
def chars : Literal → List Char
  | .null => ['n', 'u', 'l', 'l']
  | .boolean true => ['t', 'r', 'u', 'e']
  | .boolean false => ['f', 'a', 'l', 's', 'e']
  | .number x => numberChars x
  | .text s => Json.quotedChars s

@[inherit_doc chars]
def shown (l : Literal) : String := String.ofList l.chars

end Literal

/-- One value of a value holder. -/
inductive EnumValue where
  | literal (value : Literal)
  /-- A list or an object, which no type can name. -/
  | structured (value : Json)

/-- A JSON value as a value of a holder. -/
def EnumValue.ofJson (j : Json) : EnumValue :=
  match Literal.ofJson? j with
  | some l => .literal l
  | none => .structured j

end SchemaTyping
