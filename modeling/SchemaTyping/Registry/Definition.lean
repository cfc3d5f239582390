import SchemaTyping.Registry.Path
import SchemaTyping.Registry.Rule

set_option autoImplicit false

/-! # Definitions and instances

A `Definition` declares the fields of an object: a table from paths to rules. The tree of fields is
implicit in the paths; `Definition.childKeys` finds the fields directly below a path. An `Instance` is what
a registry holds: a definition or a list of enumerable values. -/

namespace SchemaTyping

/-- Rules by field path, in order of declaration. -/
structure Definition where
  rules : Table Rule := []

namespace Definition

/-- The rule declared at a path. -/
def rule? (d : Definition) (path : String) : Option Rule := d.rules.get? path

/-- Declare a rule. A path that is declared already keeps its place and gets the new rule. -/
def insert (d : Definition) (path : String) (rule : Rule) : Definition :=
  { rules := d.rules.insert path rule }

/-- Declare several rules one after the other. -/
def ofList (rules : List (String × Rule)) : Definition :=
  rules.foldl (fun d (path, rule) => d.insert path rule) {}

/-- The keys of the fields directly below a path, in order of declaration. A field counts as soon as
    anything below it is declared. The wildcard segment stands for the elements of a list and is no
    key. -/
def childKeys (d : Definition) (parent wildcard : String) : List String :=
  let keys := d.rules.names.filterMap fun path => (Path.below? parent path).map Path.firstSegment
  (keys.filter fun key => !key.isEmpty && key != wildcard).eraseDups

end Definition

/-- Something a registry holds. -/
inductive Instance where
  | schema (definition : Definition)
  /-- A holder of enumerable values. -/
  | values (values : List EnumValue)

end SchemaTyping
