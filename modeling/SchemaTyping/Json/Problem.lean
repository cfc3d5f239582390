import SchemaTyping.Json.Writing
import SchemaTyping.Text.Escaped

set_option autoImplicit false

/-! # What can be wrong with a JSON text

A `Fault` is one reason to refuse a text: either it is not JSON (`Malformed`), or it is JSON of another
shape than the one that is wanted. A `Problem` is a fault with the place where it was met, a path of
object keys and list positions from the root of the text. -/

namespace SchemaTyping.Json

/-! ## Faults -/

/-- Reasons why a text is not JSON. -/
inductive Malformed where
  | endInValue
  | endInText
  | endInList
  | endInObject
  | expectedValue
  | expectedWord
  | expectedColon
  | expectedListEnd
  | expectedObjectEnd
  | keyNotText
  | trailingComma
  | trailingCharacters
  | invalidNumber
  | numberOutOfRange
  | invalidEscape
  /-- The first half of a surrogate pair without an escape behind it. -/
  | brokenPair
  /-- Half of a surrogate pair without the other half. -/
  | loneSurrogate
  | controlCharacter
  | tooDeep
  deriving DecidableEq

/-- The wording of a reason. -/
def Malformed.message : Malformed → String
  | .endInValue => "EOF while parsing a value"
  | .endInText => "EOF while parsing a string"
  | .endInList => "EOF while parsing a list"
  | .endInObject => "EOF while parsing an object"
  | .expectedValue => "expected value"
  | .expectedWord => "expected ident"
  | .expectedColon => "expected `:`"
  | .expectedListEnd => "expected `,` or `]`"
  | .expectedObjectEnd => "expected `,` or `\x7d`"
  | .keyNotText => "key must be a string"
  | .trailingComma => "trailing comma"
  | .trailingCharacters => "trailing characters"
  | .invalidNumber => "invalid number"
  | .numberOutOfRange => "number out of range"
  | .invalidEscape => "invalid escape"
  | .brokenPair => "unexpected end of hex escape"
  | .loneSurrogate => "lone leading surrogate in hex escape"
  | .controlCharacter => "control character (\\u0000-\\u001F) found while parsing a string"
  | .tooDeep => "recursion limit exceeded"

/-- What stands where something else is wanted. -/
inductive Found where
  | null
  | boolean (value : Bool)
  | number (value : Number)
  | text (value : String)
  | list
  | object
  deriving DecidableEq

/-- The kind of a value. -/
def Found.ofJson : Json → Found
  | .null => .null
  | .boolean b => .boolean b
  | .number n => .number n
  | .text s => .text s
  | .list _ => .list
  | .object _ => .object

/-- A number between quotation marks, as it would be printed. -/
def Number.described (n : Number) : String :=
  let kind := match n with
    | .integer _ => "integer"
    | .negativeZero | .real _ => "floating point"
  kind ++ " `" ++ String.ofList n.chars ++ "`"

/-- The wording of a kind. Scalars are quoted. -/
def Found.described : Found → String
  | .null => "null"
  | .boolean b => "boolean `" ++ (if b then "true" else "false") ++ "`"
  | .number n => n.described
  | .text s => "string " ++ Text.escaped s
  | .list => "sequence"
  | .object => "map"

/-- Reasons to refuse a text. -/
inductive Fault where
  | malformed (reason : Malformed)
  | mismatch (found : Found) (wanted : String)
  /-- The right kind of number, but not one of those that are wanted. -/
  | outside (number : Number) (wanted : String)
  | unknownField (name : String) (known : List String)
  | unknownVariant (name : String) (known : List String)
  | duplicateField (name : String)
  | tooManyItems (count : Nat)
  deriving DecidableEq

/-- A choice of names: one, one of two, or one of many. -/
def alternatives (names : List String) : String :=
  let ticked := names.map fun n => "`" ++ n ++ "`"
  match ticked with
  | [a, b] => a ++ " or " ++ b
  | [a] => a
  | _ => "one of " ++ ", ".intercalate ticked

/-- The wording of a fault. -/
def Fault.message : Fault → String
  | .malformed reason => reason.message
  | .mismatch found wanted => "invalid type: " ++ found.described ++ ", expected " ++ wanted
  | .outside n wanted => "invalid value: " ++ n.described ++ ", expected " ++ wanted
  | .unknownField name known => "unknown field `" ++ name ++ "`, expected " ++ alternatives known
  | .unknownVariant name known => "unknown variant `" ++ name ++ "`, expected " ++ alternatives known
  | .duplicateField name => "duplicate field `" ++ name ++ "`"
  | .tooManyItems count =>
    "invalid length " ++ toString count ++ ", expected fewer elements in array"

/-! ## Places -/

/-- One step from a value to a part of it. -/
inductive Step where
  | key (name : String)
  | index (position : Nat)
  /-- To the member whose key has not been read yet. -/
  | unnamed
  deriving DecidableEq

/-- The text of a path: positions in brackets, keys with a point between them, and a single point for the
    root. -/
def Step.render : List Step → String
  | [] => "."
  | steps => go true steps
where
  go (first : Bool) : List Step → String
    | [] => ""
    | .index i :: rest => "[" ++ toString i ++ "]" ++ go false rest
    | .key name :: rest => (if first then "" else ".") ++ name ++ go false rest
    | .unnamed :: rest => (if first then "" else ".") ++ "?" ++ go false rest

/-- A fault and the place where it was met. -/
structure Problem where
  path : List Step
  fault : Fault
  deriving DecidableEq

/-- The same problem, seen from one step further out. -/
def Problem.under (p : Problem) (s : Step) : Problem := { p with path := s :: p.path }

end SchemaTyping.Json
