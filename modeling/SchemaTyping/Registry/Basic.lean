import SchemaTyping.Registry.Definition

set_option autoImplicit false

/-! # The registry

A `Registry` owns every instance, named or not, and gives names to some of them. Instances are only ever
added at the end, so an id stays valid and keeps its meaning; their content can be replaced, which is how
a definition can refer to itself. Several names may stand for one instance: such names are aliases of
each other.

Operations that can be refused leave the caller with the registry it had. -/

namespace SchemaTyping

/-- Why an operation on a registry is refused. -/
inductive RegistryError where
  | duplicateTypeName (name : String)
  | unknownInstance (id : InstanceId)
  | emptyAlternation
  deriving DecidableEq

/-- The wording of a refusal. -/
def RegistryError.message : RegistryError → String
  | .duplicateTypeName name => "type name `" ++ name ++ "` is already registered"
  | .unknownInstance id => "instance " ++ id.shown ++ " does not exist in this registry"
  | .emptyAlternation => "an alternation must list at least one candidate"

/-- Instances, and names for some of them in order of registration. -/
structure Registry where
  instances : List Instance := []
  entries : Table InstanceId := []

/-- A rule for a value of one of these shapes, of which there must be one. -/
def Rule.oneOf (candidates : List Candidate) : Except RegistryError Rule :=
  match Rule.oneOf? candidates with
  | some rule => .ok rule
  | none => .error .emptyAlternation

namespace Registry

/-- The instance with an id. -/
def instance? (r : Registry) (id : InstanceId) : Option Instance := r.instances[id.index]?

/-- The id a name stands for. -/
def get? (r : Registry) (name : String) : Option InstanceId := r.entries.get? name

/-- Add an instance without a name. -/
def add (r : Registry) (i : Instance) : Registry × InstanceId :=
  ({ r with instances := r.instances ++ [i] }, ⟨r.instances.length⟩)

/-- Take an id before its content is known. -/
def reserve (r : Registry) : Registry × InstanceId := r.add (.schema {})

/-- Replace the content of an instance. -/
def define (r : Registry) (id : InstanceId) (i : Instance) : Except RegistryError Registry :=
  if id.index < r.instances.length then
    .ok { r with instances := r.instances.set id.index i }
  else .error (.unknownInstance id)

/-- Give a further name to an instance that is there. -/
def bind (r : Registry) (name : String) (id : InstanceId) : Except RegistryError Registry :=
  if r.instances.length ≤ id.index then .error (.unknownInstance id)
  else if r.entries.has name then .error (.duplicateTypeName name)
  else .ok { r with entries := r.entries ++ [(name, id)] }

/-- Add an instance under a new name. -/
def register (r : Registry) (name : String) (i : Instance) :
    Except RegistryError (Registry × InstanceId) :=
  if r.entries.has name then .error (.duplicateTypeName name)
  else do
    let (added, id) := r.add i
    let bound ← added.bind name id
    return (bound, id)

end Registry

end SchemaTyping
