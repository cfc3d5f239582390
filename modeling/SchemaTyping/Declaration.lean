import SchemaTyping.TypeExpr.Writing

set_option autoImplicit false

/-! # Declarations

A declaration gives a type a name. An object becomes an interface with a field on each line, any other
type an alias on one line. Declarations end with a line break, so they are put one behind the other
without more. -/

namespace SchemaTyping

/-- A named type. -/
structure Declaration where
  name : String
  type : TypeExpr

namespace Declaration

/-- The name that stands for an object of which nothing is declared, unless it is configured. -/
def defaultObjectName : String := "Object"

/-- The space before each field of an interface. -/
def indent : List Char := [' ', ' ', ' ', ' ']

/-- The fields of an interface, each a line. -/
def fieldLines (objectName : String) (fields : List (Field TypeExpr)) : List Char :=
  (TypeExpr.fieldsChars objectName fields).flatMap fun field => indent ++ field ++ [';', '\n']

/-- The text of a declaration. -/
def chars (objectName : String) (d : Declaration) : List Char :=
  match d.type with
  | .object fields =>
    "export interface ".toList ++ d.name.toList ++
      if fields.isEmpty then [' ', '\x7b', '\x7d', '\n']
      else [' ', '\x7b', '\n'] ++ fieldLines objectName fields ++ ['\x7d', '\n']
  | type =>
    "export type ".toList ++ d.name.toList ++ " = ".toList ++ type.chars objectName ++ [';', '\n']

@[inherit_doc chars]
def render (objectName : String) (d : Declaration) : String := String.ofList (d.chars objectName)

end Declaration

end SchemaTyping
