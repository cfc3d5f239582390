import SchemaTyping.Resolve

set_option autoImplicit false

/-! # A generation pass

`generate` turns every entry of a registry into a declaration, in registry order. A definition becomes an
object with the fields that have a type; a field without one ends the pass or is left out and reported, as
the options say. Names that share an instance are reported too. -/

namespace SchemaTyping

/-- Something worth knowing about a generation that succeeded. -/
inductive Diagnostic where
  /-- A field that is left out. -/
  | skippedField (typeName field : String) (cause : ResolveError)
  /-- Names that share an instance. -/
  | ambiguousReference (names : List String)

/-- The wording of a diagnostic. -/
def Diagnostic.message : Diagnostic → String
  | .skippedField typeName field cause =>
    "skipped `" ++ typeName ++ "." ++ field ++ "`: " ++ cause.message
  | .ambiguousReference names =>
    "one instance is registered as " ++ ", ".intercalate names ++ "; references use `"
      ++ names.headD "" ++ "`"

/-- Why there is nothing to generate. The workers that resolve the entries side by side are taken to start, so
    there is no error for those that do not. -/
inductive GenerateError where
  | field (typeName field : String) (cause : ResolveError)
  | declaration (typeName : String) (cause : ResolveError)

namespace GenerateError

/-- The wording of an error, without its cause. -/
def message : GenerateError → String
  | .field typeName key _ => "failed to resolve field `" ++ key ++ "` of `" ++ typeName ++ "`"
  | .declaration typeName _ => "failed to resolve declaration `" ++ typeName ++ "`"

/-- Why the field or the declaration has no type. -/
def cause : GenerateError → ResolveError
  | .field _ _ cause => cause
  | .declaration _ cause => cause

end GenerateError

/-- The outcome of a generation. -/
structure Generated where
  declarations : List Declaration
  diagnostics : List Diagnostic
  /-- The name of an object of which nothing is declared. -/
  objectName : String
  /-- Put the banner in front of the text. -/
  header : Bool

namespace Generated

/-- Says that the text is not to be edited. -/
def banner : String :=
  "// *************************************************************\n" ++
  "//                Generated file: do not edit\n" ++
  "// This file was generated by schema-to-types\n" ++
  "// *************************************************************\n"

/-- Put a declaration behind a text, with an empty line between them. -/
def append (text declaration : List Char) : List Char :=
  if text.isEmpty then declaration else text ++ '\n' :: declaration

/-- The whole text: the banner, if it is wanted, and the declarations. -/
def chars (g : Generated) : List Char :=
  (g.declarations.map (Declaration.chars g.objectName)).foldl append
    (if g.header then banner.toList else [])

@[inherit_doc chars]
def text (g : Generated) : String := String.ofList g.chars

end Generated

/-! ## The pass -/

/-- The fields with these keys that have a type, and a report of each that has not. -/
def Resolver.keyFields (r : Resolver) (typeName : String) (d : Definition) :
    List String → Except GenerateError (List (Field TypeExpr) × List Diagnostic)
  | [] => .ok ([], [])
  | key :: keys =>
    match r.resolveField key d with
    | .ok field => do
      let (fields, skipped) ← r.keyFields typeName d keys
      return (field :: fields, skipped)
    | .error cause =>
      match r.options.missingFields with
      | .abort => .error (.field typeName key cause)
      | .skip => do
        let (fields, skipped) ← r.keyFields typeName d keys
        return (fields, .skippedField typeName key cause :: skipped)

/-- The declaration of one entry, and the reports of the fields it leaves out. -/
def Resolver.declare (r : Resolver) (name : String) (id : InstanceId) :
    Except GenerateError (Declaration × List Diagnostic) :=
  match r.registry.instance? id with
  | some (.schema d) => do
    let keys := d.childKeys "" r.options.wildcardSegment
    let (fields, skipped) ← r.keyFields name d keys
    return ({ name, type := .object fields }, skipped)
  | some (.values values) =>
    match literalsType name values with
    | .ok type => .ok ({ name, type }, [])
    | .error cause => .error (.declaration name cause)
  | none => .error (.declaration name (.unclassified name (.missingInstance id)))

/-- Declare every entry of a registry. The first entry that fails decides the error. -/
def generate (registry : Registry) (options : Options) : Except GenerateError Generated := do
  let r : Resolver := { registry, options }
  let results ← registry.entries.mapM fun (name, id) => r.declare name id
  return {
    declarations := results.map (·.1)
    diagnostics := registry.aliases.map .ambiguousReference ++ results.flatMap (·.2)
    objectName := options.objectName
    header := options.header }

end SchemaTyping
