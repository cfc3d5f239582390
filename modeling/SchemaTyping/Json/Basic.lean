import SchemaTyping.Binary64.Basic
import SchemaTyping.Table

set_option autoImplicit false

/-! # JSON values

`Json` is the value of a JSON text. Numbers keep the form that decides how they are printed again: an
integer of at most 64 bits, the one negative zero, or a double. Objects keep their members in order of
first appearance: a `Table`, in which a repeated key has its old place and its new value. -/

namespace SchemaTyping

/-- A JSON number. -/
inductive Json.Number where
  /-- A numeral without fraction and exponent that fits 64 bits. -/
  | integer (value : Int)
  /-- `-0` and its spellings. -/
  | negativeZero
  | real (value : Dyadic)
  deriving DecidableEq

/-- A JSON value. -/
inductive Json where
  | null
  | boolean (value : Bool)
  | number (value : Json.Number)
  | text (value : String)
  | list (items : List Json)
  | object (members : List (String × Json))
  deriving Inhabited

namespace Json

/-- The value a number has as a double. Integers of more than 53 bits are rounded. -/
def Number.toBinary64 : Number → Binary64
  | .integer i => .ofInt i
  | .negativeZero => .finite 0
  | .real x => .finite x

/-- The members of an object, in order of first appearance. -/
abbrev Members := Table Json

end Json

end SchemaTyping
