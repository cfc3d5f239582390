import SchemaTyping.TypeExpr.Basic

set_option autoImplicit false

/-! # The text of a type

`TypeExpr.chars` writes a type on one line. Arms are separated by bars, an array is a postfix `[]` with
parentheses around an alternation, an object stands in braces with its fields separated by semicolons,
and an empty alternation is `never`.

A key is written bare when it is an identifier and as a JSON string otherwise; a question mark behind it
makes the field optional. `Field.keyChars` is shared with the declarations, which write one field on a
line. -/

namespace SchemaTyping

/-! ## Keys -/

/-- A character an identifier can start with. -/
def isIdentifierStart (c : Char) : Bool := c.isAlpha || c = '_' || c = '$'

/-- A character an identifier can go on with. -/
def isIdentifierPart (c : Char) : Bool := c.isAlphanum || c = '_' || c = '$'

/-- Identifiers are letters, digits, `_` and `$`, of ASCII only, and do not start with a digit. -/
def isIdentifier : List Char → Bool
  | [] => false
  | c :: rest => isIdentifierStart c && rest.all isIdentifierPart

/-- A key with the mark of an optional field. -/
def Field.keyChars {τ : Type} (f : Field τ) : List Char :=
  (if isIdentifier f.name.toList then f.name.toList else Json.quotedChars f.name)
    ++ (if f.optional then ['?'] else [])

/-! ## Types -/

namespace TypeExpr

/-- Separates the arms of an alternation. -/
def bar : List Char := [' ', '|', ' ']

/-- Separates the fields of an object written on one line. -/
def semicolon : List Char := [';', ' ']

/-- The type without values. -/
def never : List Char := ['n', 'e', 'v', 'e', 'r']

/-- The arms of an alternation with bars between them. -/
def alternation : List (List Char) → List Char
  | [] => never
  | arms => bar.intercalate arms

/-- Fields between braces. -/
def braces : List (List Char) → List Char
  | [] => ['\x7b', '\x7d']
  | fields => '\x7b' :: ' ' :: (semicolon.intercalate fields ++ [' ', '\x7d'])

mutual

/-- A type on one line; `objectName` is written for an object of which nothing is declared. -/
def chars (objectName : String) : TypeExpr → List Char
  | .scalar name => name.toList
  | .reference name => name.toList
  | .anyObject => objectName.toList
  | .array item =>
    if item.isAlternation then '(' :: (chars objectName item ++ [')', '[', ']'])
    else chars objectName item ++ ['[', ']']
  | .object fields => braces (fieldsChars objectName fields)
  | .union arms => alternation (armsChars objectName arms)
  | .literals values => alternation (values.map Literal.chars)

/-- The texts of the arms of an alternation. -/
def armsChars (objectName : String) : List TypeExpr → List (List Char)
  | [] => []
  | arm :: rest => chars objectName arm :: armsChars objectName rest

/-- The texts of the fields of an object, each a key, a colon and a type. -/
def fieldsChars (objectName : String) : List (Field TypeExpr) → List (List Char)
  | [] => []
  | ⟨name, type, optional⟩ :: rest =>
    ((Field.mk name () optional).keyChars ++ ':' :: ' ' :: chars objectName type)
      :: fieldsChars objectName rest

end

/-- The text of a type. -/
def render (objectName : String) (t : TypeExpr) : String := String.ofList (t.chars objectName)

end TypeExpr

end SchemaTyping
