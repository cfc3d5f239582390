import SchemaTyping.Json.Problem
import SchemaTyping.Registry.Basic

set_option autoImplicit false

/-! # What can be wrong with a document

`DocumentError` lists the reasons to refuse a schema document or an options file, each with the place in
the document it concerns. Most reasons that need no further data are an `Objection`. -/

namespace SchemaTyping

/-- Nesting limits above this one are refused. -/
def maxDepthBound : Nat := 512

/-- A reason to refuse the value at one place. -/
inductive Objection where
  /-- A nesting limit above `maxDepthBound`. -/
  | depthTooLarge (depth : Nat)
  /-- A rule attribute with a meaning of its own cannot carry the type name. -/
  | reservedKey (key : String)
  | unreadable (reason : String)
  | definedTwice
  | notAnObject
  | schemaNotAnObject
  | valuesNotACollection
  | typeMissing
  | nameEmpty (key : String)
  | notABoolean (key : String)
  | notANumber (key : String)
  | notAString (key : String)
  | badRegex
  /-- An object with one of the special keys has another key. -/
  | notAlone (key other : String)
  | noSpecialKey
  | notATypeSpec
  deriving DecidableEq

/-- The wording of an objection. -/
def Objection.message : Objection → String
  | .depthTooLarge depth =>
    toString depth ++ " exceeds the limit of " ++ toString maxDepthBound
  | .reservedKey key => "`" ++ key ++ "` is reserved for rule attributes"
  | .unreadable reason => reason
  | .definedTwice => "instance name is defined twice"
  | .notAnObject => "expected an object"
  | .schemaNotAnObject => "`$schema` must be an object"
  | .valuesNotACollection => "`$values` must be an array or an object"
  | .typeMissing => "a rule needs a `type`"
  | .nameEmpty key => "`" ++ key ++ "` must be a non-empty string"
  | .notABoolean key => "`" ++ key ++ "` must be a boolean"
  | .notANumber key => "`" ++ key ++ "` must be a number"
  | .notAString key => "`" ++ key ++ "` must be a string"
  | .badRegex => "bad `regex`"
  | .notAlone key other =>
    "`" ++ other ++ "` cannot sit next to `" ++ key ++ "`; write `\x7b \"type\": \x7b \"" ++ key
      ++ "\": ... \x7d, \"" ++ other ++ "\": ... \x7d`"
  | .noSpecialKey => "expected `$ref`, `$schema` or `$values`"
  | .notATypeSpec => "expected a type name, an alternation or an object"

/-- A reason to refuse a document. -/
inductive DocumentError where
  /-- The text is not JSON, or not of the shape that is wanted. -/
  | parse (problem : Json.Problem)
  | pointer (pointer : String)
  | unknownKind (place name : String)
  | unknownRef (place name : String)
  | emptyAlternation (place : String)
  | invalid (place : String) (objection : Objection)
  | registry (error : RegistryError)
  deriving DecidableEq

/-- The wording of a reason. -/
def DocumentError.message : DocumentError → String
  | .parse p => "at JSON path " ++ Json.Step.render p.path ++ " → " ++ p.fault.message
  | .pointer p => "JSON pointer `" ++ p ++ "` does not select anything"
  | .unknownKind place name => "`" ++ place ++ "`: unknown type `" ++ name ++ "`"
  | .unknownRef place name => "`" ++ place ++ "`: `$ref` target `" ++ name ++ "` is not defined"
  | .emptyAlternation place => "`" ++ place ++ "`: an alternation must list at least one type"
  | .invalid place objection => "`" ++ place ++ "`: " ++ objection.message
  | .registry error => error.message

end SchemaTyping
