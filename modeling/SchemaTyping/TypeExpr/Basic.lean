import SchemaTyping.Registry.Literal

set_option autoImplicit false

/-! # Type expressions

A `TypeExpr` is the structural type of a field: a tree that knows nothing of schemas and instances, only
of the names, shapes and literals that a declaration can show. -/

namespace SchemaTyping

/-- A named member of an object type. -/
structure Field (τ : Type) where
  name : String
  type : τ
  optional : Bool

/-- A structural type. -/
inductive TypeExpr where
  /-- A scalar, by the name it is configured to have. -/
  | scalar (name : String)
  /-- A declared type, by name. -/
  | reference (name : String)
  | array (item : TypeExpr)
  /-- An object with its fields in order of declaration. -/
  | object (fields : List (Field TypeExpr))
  /-- An alternation, in order of declaration. -/
  | union (arms : List TypeExpr)
  /-- One of several literals, in order of enumeration. -/
  | literals (values : List Literal)
  /-- An object about whose fields nothing is declared. -/
  | anyObject
  deriving Inhabited

namespace TypeExpr

/-- The type of a value of any of these types: one stays as it is, several become a union. -/
def oneOf : List TypeExpr → TypeExpr
  | [arm] => arm
  | arms => .union arms

/-- An object with these fields, if any are declared. -/
def ofFields (fields : List (Field TypeExpr)) : TypeExpr :=
  if fields.isEmpty then .anyObject else .object fields

/-- Does the text of the type consist of several arms? It then needs parentheses before `[]`. -/
def isAlternation : TypeExpr → Bool
  | .union arms => decide (1 < arms.length)
  | .literals values => decide (1 < values.length)
  | _ => false

end TypeExpr

end SchemaTyping
