import SchemaTyping.Document.Error
import SchemaTyping.Options
import SchemaTyping.Regex.Accepted

set_option autoImplicit false

/-! # Reading the bodies of a document

A body is a definition, an object of rules by path, or a list of enumerable values. A rule is a type
specification or an object with a `type` and further attributes. A type specification is a type name, a
reference, an inline body, or an alternation of these; alternations are flattened.

Every inline body becomes an instance of its own, added to the registry when its end is reached. That is
all a `Reading` changes: it can find instances by name, but it gives no names. The functions recurse on
the JSON value. -/

namespace SchemaTyping

/-- What the meaning of a body depends on. -/
structure Scope where
  /-- The attribute that carries an explicit type name. -/
  overrideKey : String
  /-- The instance a name refers to. -/
  target? : String → Option InstanceId

/-- A step that may add instances to a registry and may be refused. What was added stays. -/
abbrev Reading (α : Type) := ExceptT DocumentError (StateM Registry) α

namespace Body

/-- The key of a reference. -/
def refKey : String := "$ref"

/-- The key of an inline definition. -/
def schemaKey : String := "$schema"

/-- The key of a list of values. -/
def valuesKey : String := "$values"

/-- Objects with one of these keys may have no other key. -/
def specialKeys : List String := [refKey, schemaKey, valuesKey]

/-- Refuse the value at a place. -/
def refuse {α : Type} (place : String) (o : Objection) : Except DocumentError α :=
  .error (.invalid place o)

/-- The place of a rule of a body. -/
def atKey (place key : String) : String := place ++ "." ++ key

/-- The place of an arm of an alternation. -/
def atIndex (place : String) (i : Nat) : String := place ++ "[" ++ toString i ++ "]"

/-- Refuse an object that has another key than this one. -/
def alone (place : String) (members : Json.Members) (key : String) : Except DocumentError Unit :=
  match members.find? (·.1 ≠ key) with
  | none => .ok ()
  | some (other, _) => refuse place (.notAlone key other)

/-- The values that a holder lists: those of a list, or of an object without its keys. -/
def enumValues (place : String) : Json → Except DocumentError (List EnumValue)
  | .list items => .ok (items.map EnumValue.ofJson)
  | .object members => .ok (members.map fun member => EnumValue.ofJson member.2)
  | _ => refuse place .valuesNotACollection

/-- The candidate that a type name stands for. -/
def kind? : String → Option Candidate
  | "Number" => some (.scalar .number)
  | "Integer" => some (.scalar .integer)
  | "String" => some (.scalar .text)
  | "Boolean" => some (.scalar .boolean)
  | "Date" => some (.scalar .dateTime)
  | "Array" => some .array
  | "Object" => some .object
  | _ => none

/-! ## Rules -/

/-- Is the object a rule with attributes, and not a type specification? -/
def isFullRule (members : Json.Members) : Bool := specialKeys.all fun key => !members.has key

/-- One attribute of a rule. Unknown ones are ignored. -/
def readAttribute (scope : Scope) (place : String) (rule : Rule) :
    String × Json → Except DocumentError Rule
  | (key, value) =>
    if key = scope.overrideKey then
      match value with
      | .text name =>
        if name.isEmpty then refuse place (.nameEmpty key)
        else .ok { rule with explicitName := some name }
      | _ => refuse place (.nameEmpty key)
    else match key with
      | "optional" =>
        match value with
        | .boolean b => .ok { rule with optionality := .constant b }
        | _ => refuse place (.notABoolean key)
      | "min" =>
        match value with
        | .number n =>
          .ok { rule with constraints := { rule.constraints with min := some n.toBinary64 } }
        | _ => refuse place (.notANumber key)
      | "max" =>
        match value with
        | .number n =>
          .ok { rule with constraints := { rule.constraints with max := some n.toBinary64 } }
        | _ => refuse place (.notANumber key)
      | "regex" =>
        match value with
        | .text pattern =>
          if Regex.isValid pattern then
            .ok { rule with constraints := { rule.constraints with regex := some pattern } }
          else refuse place .badRegex
        | _ => refuse place (.notAString key)
      | "label" =>
        match value with
        | .text label =>
          .ok { rule with constraints := { rule.constraints with label := some label } }
        | _ => refuse place (.notAString key)
      | "defaultValue" =>
        .ok { rule with constraints := { rule.constraints with defaultValue := some value } }
      | _ => .ok rule

/-- A rule with its candidates and no attributes. -/
def bareRule (candidates : List Candidate) : Except DocumentError Rule :=
  (Rule.oneOf candidates).mapError .registry

/-- A rule with attributes; `type` reads its type specification. -/
def fullRule (scope : Scope) (place : String) (members : Json.Members)
    (type : Reading (List Candidate)) : Reading Rule := do
  if !members.has "type" then refuse place .typeMissing
  let rule ← bareRule (← type)
  let complete : Except DocumentError Rule := members.foldlM (readAttribute scope place) rule
  complete

/-- The rule that a value describes; `type` reads its type specification when it has attributes, and
    `spec` reads the value itself as one when it has none. -/
def ruleOf (scope : Scope) (place : String) (value : Json) (type spec : Reading (List Candidate)) :
    Reading Rule :=
  match value with
  | .object members =>
    if isFullRule members then fullRule scope place members type
    else do bareRule (← spec)
  | _ => do bareRule (← spec)

/-! ## Bodies -/

/-- The instance that an object describes; `schema` reads the value of its special key and `fields` the
    object itself, as a definition. -/
def bodyOf (place : String) (members : Json.Members) (schema fields : Reading Definition) :
    Reading Instance := do
  match members.get? valuesKey with
  | some values =>
    alone place members valuesKey
    return .values (← enumValues place values)
  | none =>
    if members.has schemaKey then
      alone place members schemaKey
      return .schema (← schema)
    else return .schema (← fields)

/-- The candidates that an object stands for, as a type specification. -/
def objectCandidates (scope : Scope) (place : String) (members : Json.Members)
    (schema fields : Reading Definition) : Reading (List Candidate) := do
  match members.get? refKey with
  | some target =>
    alone place members refKey
    match target with
    | .text name =>
      match scope.target? name with
      | some id => return [.nested id]
      | none => throw (.unknownRef place name)
    | _ => refuse place (.notAString refKey)
  | none =>
    if members.has schemaKey || members.has valuesKey then
      let body ← bodyOf place members schema fields
      let id ← modifyGet fun registry => let (registry, id) := registry.add body; (id, registry)
      return [.nested id]
    else refuse place .noSpecialKey

mutual

/-- The candidates of a type specification, from left to right. -/
def readCandidates (scope : Scope) (place : String) : Json → Reading (List Candidate)
  | .text name =>
    match kind? name with
    | some candidate => return [candidate]
    | none => throw (.unknownKind place name)
  | .list items => do
    if items.isEmpty then throw (.emptyAlternation place)
    readArms scope place 0 items
  | .object members =>
    objectCandidates scope place members (readSchema scope place members)
      (readRules scope place {} members)
  | _ => refuse place .notATypeSpec

/-- The candidates of the arms of an alternation, from the arm at position `i` on. -/
def readArms (scope : Scope) (place : String) (i : Nat) : List Json → Reading (List Candidate)
  | [] => return []
  | arm :: rest => do
    let first ← readCandidates scope (atIndex place i) arm
    let others ← readArms scope place (i + 1) rest
    return first ++ others

/-- The definition under the key for inline definitions. -/
def readSchema (scope : Scope) (place : String) : List (String × Json) → Reading Definition
  | [] => refuse place .schemaNotAnObject
  | (key, value) :: rest =>
    if key = schemaKey then
      match value with
      | .object rules => readRules scope place {} rules
      | _ => refuse place .schemaNotAnObject
    else readSchema scope place rest

/-- The candidates under the key `type`. -/
def readType (scope : Scope) (place : String) : Json → Reading (List Candidate)
  | .object members => readTypeMember scope place members
  | _ => refuse place .typeMissing

@[inherit_doc readType]
def readTypeMember (scope : Scope) (place : String) :
    List (String × Json) → Reading (List Candidate)
  | [] => refuse place .typeMissing
  | (key, value) :: rest =>
    if key = "type" then readCandidates scope (atKey place "type") value
    else readTypeMember scope place rest

/-- Declare the rules of a definition one after the other. -/
def readRules (scope : Scope) (place : String) (d : Definition) :
    List (String × Json) → Reading Definition
  | [] => return d
  | (path, value) :: rest => do
    let here := atKey place path
    let rule ← ruleOf scope here value (readType scope here value) (readCandidates scope here value)
    readRules scope place (d.insert path rule) rest

end

/-- The rule that a value describes. -/
def readRule (scope : Scope) (place : String) (value : Json) : Reading Rule :=
  ruleOf scope place value (readType scope place value) (readCandidates scope place value)

/-- The instance that a body describes. -/
def read (scope : Scope) (place : String) : Json → Reading Instance
  | .object members =>
    bodyOf place members (readSchema scope place members) (readRules scope place {} members)
  | _ => refuse place .notAnObject

end Body

end SchemaTyping
