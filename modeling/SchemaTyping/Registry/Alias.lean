import SchemaTyping.Registry.Basic

set_option autoImplicit false

/-! # Names of an instance

Two views of the same relation between names and instances: `Registry.reference?` collects the names of
one instance, `Registry.aliases` sorts all names into groups in a single pass. -/

namespace SchemaTyping

/-- The names bound to one instance. -/
structure Reference where
  /-- The first name in registry order, which stands for the instance. -/
  name : String
  /-- The other names, in registry order. -/
  aliases : List String
  deriving DecidableEq

namespace Reference

/-- Is the instance bound to more than one name? -/
def isAmbiguous (r : Reference) : Bool := !r.aliases.isEmpty

/-- All names in registry order. -/
def names (r : Reference) : List String := r.name :: r.aliases

end Reference

namespace Registry

/-- The names of an instance, if it has any. Only the id counts, never the content. -/
def reference? (r : Registry) (id : InstanceId) : Option Reference :=
  match (r.entries.filter fun entry => entry.2 = id).map (·.1) with
  | [] => none
  | name :: aliases => some { name, aliases }

/-- Put a name into the group of its instance; the first name of an instance opens a group at the end. -/
def addToGroup (name : String) (id : InstanceId) :
    List (InstanceId × List String) → List (InstanceId × List String)
  | [] => [(id, [name])]
  | (other, names) :: rest =>
    if other = id then (other, names ++ [name]) :: rest
    else (other, names) :: addToGroup name id rest

/-- All names, grouped by instance. -/
def groups (r : Registry) : List (InstanceId × List String) :=
  r.entries.foldl (fun groups (name, id) => addToGroup name id groups) []

/-- The groups of names that share an instance. -/
def aliases (r : Registry) : List (List String) :=
  (r.groups.map (·.2)).filter fun names => 1 < names.length

end Registry

end SchemaTyping
