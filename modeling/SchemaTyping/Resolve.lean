import SchemaTyping.Options
import SchemaTyping.Registry.Alias

set_option autoImplicit false

/-! # The type of a field

A `Resolver` finds the type of the field declared at a path of a definition. An explicit type name wins;
otherwise every candidate of the rule has a type of its own and several make a union. Lists look at the
wildcard segment below the field, objects at the keys below it. An instance is a reference when it has a
name, is written out when it is an anonymous definition, and is a choice of literals when it is an
anonymous holder of values.

Anonymous definitions can refer to each other in a circle, so a number of levels bounds the nesting:
`Resolver.typeAt` recurses on it, and every other function takes the resolution of the next level as an
argument. -/

namespace SchemaTyping

/-! ## Errors -/

/-- Why there is no type for an instance. -/
inductive Unclassified where
  /-- A list or an object among the values of a holder. -/
  | structuredValue (value : Json)
  | missingInstance (id : InstanceId)

/-- The wording of a reason. -/
def Unclassified.message : Unclassified → String
  | .structuredValue value => "enumerable value " ++ value.compact ++ " is not a scalar literal"
  | .missingInstance id => "instance " ++ id.shown ++ " is not part of this registry"

/-- Why a field has no type. -/
inductive ResolveError where
  | undeclared (path : String)
  | unclassified (path : String) (reason : Unclassified)
  /-- The nesting goes beyond the limit. -/
  | cyclic (path : String) (limit : Nat)
  /-- A reference to an instance with several names, where that is refused. -/
  | ambiguous (path : String) (names : List String)

/-- The wording of an error. -/
def ResolveError.message : ResolveError → String
  | .undeclared path => "no field rule declared for `" ++ path ++ "`"
  | .unclassified path reason =>
    "cannot classify the type of `" ++ path ++ "`: " ++ reason.message
  | .cyclic path limit =>
    "nesting deeper than " ++ toString limit ++ " levels at `" ++ path
      ++ "` (anonymous schemas referring to each other must be registered under a name)"
  | .ambiguous path names =>
    "`" ++ path ++ "` refers to an instance bound to several type names: "
      ++ ", ".intercalate names

/-! ## Resolution -/

/-- The literal a value is, if it is one. -/
def EnumValue.literal? (path : String) : EnumValue → Except ResolveError Literal
  | .literal l => .ok l
  | .structured j => .error (.unclassified path (.structuredValue j))

/-- The type of a holder of values: its literals, each at its first place. -/
def literalsType (path : String) (values : List EnumValue) : Except ResolveError TypeExpr := do
  let literals ← values.mapM (EnumValue.literal? path)
  return .literals literals.eraseDups

/-- What the type of a field depends on, besides the definition that declares it. -/
structure Resolver where
  registry : Registry
  options : Options

namespace Resolver

/-- A way to find the type of the field at a path of a definition, and whether it may be missing. -/
abbrev Level := Definition → String → Except ResolveError (TypeExpr × Bool)

variable (r : Resolver)

/-- The fields directly below a path. -/
def fieldsBelow (next : Level) (d : Definition) (parent : String) :
    Except ResolveError (List (Field TypeExpr)) :=
  (d.childKeys parent r.options.wildcardSegment).mapM fun key => do
    let (type, optional) ← next d (Path.join parent key)
    return { name := key, type, optional }

/-- The type of what an instance describes. -/
def instanceType (next : Level) (path : String) (id : InstanceId) :
    Except ResolveError TypeExpr :=
  match r.registry.reference? id with
  | some reference =>
    if reference.isAmbiguous ∧ r.options.references = .strict then
      .error (.ambiguous path reference.names)
    else .ok (.reference reference.name)
  | none =>
    match r.registry.instance? id with
    | some (.schema nested) => (r.fieldsBelow next nested "").map TypeExpr.ofFields
    | some (.values values) => literalsType path values
    | none => .error (.unclassified path (.missingInstance id))

/-- The type of one candidate of the rule at a path. -/
def candidateType (next : Level) (d : Definition) (path : String) :
    Candidate → Except ResolveError TypeExpr
  | .scalar kind => .ok (.scalar (r.options.scalarNames.name kind))
  | .array => (next d (Path.join path r.options.wildcardSegment)).map fun (item, _) => .array item
  | .object => (r.fieldsBelow next d path).map TypeExpr.ofFields
  | .nested id => r.instanceType next path id

/-- The type that a rule gives to the field at a path. -/
def ruleType (next : Level) (d : Definition) (path : String) (rule : Rule) :
    Except ResolveError TypeExpr :=
  match rule.explicitName with
  | some name => .ok (.reference name)
  | none => do
    let arms ← rule.candidates.mapM (r.candidateType next d path)
    return .oneOf arms

/-- The type at a path, with so many levels left. -/
def typeAt : Nat → Level
  | 0, _, path => .error (.cyclic path r.options.depthLimit)
  | levels + 1, d, path =>
    match d.rule? path with
    | none => .error (.undeclared path)
    | some rule => do
      let type ← r.ruleType (typeAt levels) d path rule
      return (type, rule.optionality.holds)

/-- The type at a path with all levels left: the field itself is not nested. -/
def top : Level := r.typeAt (r.options.depthLimit + 1)

/-- The type of the field at a path. -/
def resolve (path : String) (d : Definition) : Except ResolveError TypeExpr :=
  (r.top d path).map (·.1)

/-- The field at a path, under its last segment. -/
def resolveField (path : String) (d : Definition) : Except ResolveError (Field TypeExpr) := do
  let (parent, key) := Path.parentAndKey path
  let (type, optional) ← r.top d (Path.join parent key)
  return { name := key, type, optional }

end Resolver

end SchemaTyping
