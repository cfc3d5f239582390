import SchemaTyping.Registry.Literal

set_option autoImplicit false

/-! # Field rules

A `Rule` says of one field which shapes its value may have and whether it may be missing. It lists at
least one `Candidate`; a candidate that is an instance of the registry is named by its `InstanceId`, so a
rule never holds another definition but only points to it. The other properties of a rule constrain
values and have no influence on types. -/

namespace SchemaTyping

/-- The kinds of scalars. -/
inductive ScalarKind where
  | number
  | integer
  | text
  | boolean
  | dateTime
  deriving DecidableEq

/-- The identity of an instance: its place among the instances of a registry. Two instances with the same
    content are different as long as their ids are. -/
structure InstanceId where
  index : Nat
  deriving DecidableEq

/-- An id as it is written in messages. -/
def InstanceId.shown (id : InstanceId) : String := "#" ++ toString id.index

/-- A shape that the value of a field may have. -/
inductive Candidate where
  | scalar (kind : ScalarKind)
  /-- A list; the rule of its elements stands under the wildcard segment below the field. -/
  | array
  /-- An object; the rules of its fields, if there are any, stand below the field. -/
  | object
  /-- What an instance of the registry describes. -/
  | nested (id : InstanceId)
  deriving DecidableEq

/-- Whether a field may be missing. -/
inductive Optionality where
  | constant (optional : Bool)
  /-- Decided by a predicate, which is asked once with no record at hand; this is its answer. -/
  | predicate (answer : Bool)
  deriving DecidableEq

/-- May the field be missing? -/
def Optionality.holds : Optionality → Bool
  | .constant b => b
  | .predicate b => b

/-- An optionality as it is listed. -/
def Optionality.shown : Optionality → String
  | .constant true => "Constant(true)"
  | .constant false => "Constant(false)"
  | .predicate _ => "Predicate(..)"

/-- Properties of a field that are recorded but do not shape its type. -/
structure Constraints where
  min : Option Binary64 := none
  max : Option Binary64 := none
  regex : Option String := none
  label : Option String := none
  defaultValue : Option Json := none

/-- What is declared of one field. -/
structure Rule where
  candidates : List Candidate
  candidates_ne_nil : candidates ≠ []
  /-- A type name that replaces whatever the candidates say. -/
  explicitName : Option String := none
  optionality : Optionality := .constant false
  constraints : Constraints := {}

/-- A rule for a value of one of these shapes, if there is any. -/
def Rule.oneOf? (candidates : List Candidate) : Option Rule :=
  if h : candidates = [] then none else some { candidates, candidates_ne_nil := h }

end SchemaTyping
