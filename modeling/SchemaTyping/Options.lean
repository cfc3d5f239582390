import SchemaTyping.Declaration
import SchemaTyping.Document.Error
import SchemaTyping.Json.Record

set_option autoImplicit false

/-! # Options

`Options` holds everything about a generation that is not in the schemas. Every option has a default, so
an options text names only what it changes: `Options.read` starts from the defaults and replaces what the
text holds. `Options.members` is the way back, the options as the members of a JSON object. -/

namespace SchemaTyping

/-- What to do with a field whose type cannot be found. -/
inductive MissingFieldPolicy where
  /-- Leave the field out and report it. -/
  | skip
  | abort
  deriving DecidableEq

/-- What to do with a reference to an instance that has several names. -/
inductive ReferencePolicy where
  /-- Use the first name in registry order. -/
  | firstMatch
  /-- Refuse it. -/
  | strict
  deriving DecidableEq

/-- The names that scalars have in declarations. -/
structure ScalarNames where
  number : String := "number"
  integer : String := "number"
  text : String := "string"
  boolean : String := "boolean"
  dateTime : String := "Date"
  deriving DecidableEq

/-- The name of a kind of scalar. -/
def ScalarNames.name (names : ScalarNames) : ScalarKind → String
  | .number => names.number
  | .integer => names.integer
  | .text => names.text
  | .boolean => names.boolean
  | .dateTime => names.dateTime

/-- Settings of a generation. -/
structure Options where
  /-- The rule attribute that carries an explicit type name. -/
  overrideKeyName : String := "typeName"
  /-- The path segment that stands for the elements of a list. -/
  wildcardSegment : String := "$"
  scalarNames : ScalarNames := {}
  /-- The name of an object of which nothing is declared. -/
  objectName : String := Declaration.defaultObjectName
  missingFields : MissingFieldPolicy := .abort
  references : ReferencePolicy := .firstMatch
  /-- How many anonymous schemas may be nested before a cycle is assumed. -/
  maxDepth : Nat := 64
  /-- Put a banner in front of the output. -/
  header : Bool := true
  deriving DecidableEq

/-! ## Validation -/

/-- Attributes of a rule that have a meaning of their own. -/
def ruleAttributes : List String :=
  ["type", "optional", "min", "max", "regex", "label", "defaultValue"]

/-- A key that cannot carry an explicit type name. -/
def isReservedKey (key : String) : Bool :=
  key.isEmpty || key.startsWith "$" || ruleAttributes.contains key

namespace Options

/-- Refuse options that no text may set. -/
def validate (o : Options) : Except DocumentError Unit :=
  if maxDepthBound < o.maxDepth then
    .error (.invalid "maxDepth" (.depthTooLarge o.maxDepth))
  else if isReservedKey o.overrideKeyName then
    .error (.invalid "overrideKeyName" (.reservedKey o.overrideKeyName))
  else .ok ()

/-- The nesting limit that is applied, whether the options are valid or not. -/
def depthLimit (o : Options) : Nat := min o.maxDepth maxDepthBound

end Options

/-! ## Reading -/

open Json (Reader)

/-- The policies for missing fields by name. -/
def MissingFieldPolicy.choices : Table MissingFieldPolicy := [("skip", .skip), ("abort", .abort)]

/-- The policies for references by name. -/
def ReferencePolicy.choices : Table ReferencePolicy :=
  [("first-match", .firstMatch), ("strict", .strict)]

namespace ScalarNames

/-- The members of the names, in order. -/
def fieldNames : List String := ["number", "integer", "text", "boolean", "dateTime"]

/-- Read one member. -/
def readField (names : ScalarNames) (field : String) : Reader ScalarNames := do
  let s ← Json.stringReader
  return match field with
    | "number" => { names with number := s }
    | "integer" => { names with integer := s }
    | "text" => { names with text := s }
    | "boolean" => { names with boolean := s }
    | _ => { names with dateTime := s }

/-- Read the names of scalars; those that are not mentioned keep their defaults. -/
def reader : Reader ScalarNames :=
  Json.recordReader "struct ScalarNames" fieldNames {} readField

end ScalarNames

namespace Options

/-- The members of the options, in order. -/
def fieldNames : List String :=
  ["overrideKeyName", "wildcardSegment", "scalarNames", "opaqueName", "missingFieldPolicy",
   "referencePolicy", "maxDepth", "header"]

/-- Read one member. -/
def readField (o : Options) (field : String) : Reader Options := do
  match field with
  | "overrideKeyName" => return { o with overrideKeyName := ← Json.stringReader }
  | "wildcardSegment" => return { o with wildcardSegment := ← Json.stringReader }
  | "scalarNames" => return { o with scalarNames := ← ScalarNames.reader }
  | "opaqueName" => return { o with objectName := ← Json.stringReader }
  | "missingFieldPolicy" =>
    return { o with missingFields := ← Json.choiceReader MissingFieldPolicy.choices }
  | "referencePolicy" =>
    return { o with references := ← Json.choiceReader ReferencePolicy.choices }
  | "maxDepth" => return { o with maxDepth := ← Json.countReader }
  | _ => return { o with header := ← Json.boolReader }

/-- Read options; those that are not mentioned keep their defaults. -/
def reader : Reader Options := Json.recordReader "struct GenerateOptions" fieldNames {} readField

/-- The options that a text starts with, valid or not. -/
def ofTextUnchecked (text : String) : Except DocumentError Options :=
  match reader.run text.toList with
  | .ok (o, _) => .ok o
  | .error p => .error (.parse p)

/-- The options that a text starts with. What follows them is not looked at. -/
def ofText (text : String) : Except DocumentError Options := do
  let o ← ofTextUnchecked text
  o.validate
  return o

/-! ## Writing -/

end Options

/-- The name of a policy. -/
def MissingFieldPolicy.name : MissingFieldPolicy → String
  | .skip => "skip"
  | .abort => "abort"

/-- The name of a policy. -/
def ReferencePolicy.name : ReferencePolicy → String
  | .firstMatch => "first-match"
  | .strict => "strict"

/-- The names of scalars as the members of a JSON object. -/
def ScalarNames.members (n : ScalarNames) : Json.Members :=
  [("number", .text n.number), ("integer", .text n.integer), ("text", .text n.text),
   ("boolean", .text n.boolean), ("dateTime", .text n.dateTime)]

/-- Options as the members of a JSON object. -/
def Options.members (o : Options) : Json.Members :=
  [("overrideKeyName", .text o.overrideKeyName), ("wildcardSegment", .text o.wildcardSegment),
   ("scalarNames", .object o.scalarNames.members), ("opaqueName", .text o.objectName),
   ("missingFieldPolicy", .text o.missingFields.name),
   ("referencePolicy", .text o.references.name),
   ("maxDepth", .number (.integer o.maxDepth)), ("header", .boolean o.header)]

end SchemaTyping
