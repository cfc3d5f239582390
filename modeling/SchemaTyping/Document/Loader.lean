import SchemaTyping.Document.Basic
import SchemaTyping.Document.Body

set_option autoImplicit false

/-! # Loading documents

A `Loader` accumulates one registry from any number of documents. The names of a document are staged
first: every body gets an id before any body is read, so bodies can refer to each other and to themselves
in any order. Names become visible only when all bodies have been read; a document that is refused leaves
no names behind, though instances that were added for it stay in the registry.

A name refers to an entry of the registry first, then to a schema of the document, then to an instance of
an earlier document and then to one of this document. -/

namespace SchemaTyping

/-- A registry under construction. -/
structure Loader where
  options : Options
  registry : Registry := {}
  /-- The named instances of the documents loaded so far. They are not entries of the registry. -/
  instances : Table InstanceId := []
  /-- Schemas of the document that is being loaded. -/
  stagedSchemas : Table InstanceId := []
  /-- Instances of the document that is being loaded. -/
  stagedInstances : Table InstanceId := []

/-- A step of loading a document, which may be refused. What it did to the loader stays done. -/
abbrev Loading (α : Type) := ExceptT DocumentError (StateM Loader) α

/-- The target of a schema that is nothing but another name for an instance. -/
def aliasTarget? : Json → Option String
  | .object [(key, .text name)] => if key = Body.refKey then some name else none
  | _ => none

namespace Loader

/-- The instance a name refers to. -/
def target? (l : Loader) (name : String) : Option InstanceId :=
  (l.registry.get? name).or <| (l.stagedSchemas.get? name).or <|
    (l.instances.get? name).or (l.stagedInstances.get? name)

/-- What bodies see of the loader. -/
def scope (l : Loader) : Scope where
  overrideKey := l.options.overrideKeyName
  target? := l.target?

/-! ## Steps -/

/-- A body that waits to be read: its place in the document, its id and itself. -/
structure Pending where
  place : String
  id : InstanceId
  body : Json

/-- Take an id. -/
def reserve : Loading InstanceId :=
  modifyGet fun l =>
    let (registry, id) := l.registry.reserve
    (id, { l with registry })

/-- Stage the instances of a document. -/
def stageInstances : Table Json → Loading (List Pending)
  | [] => return []
  | (name, body) :: rest => do
    let place := Body.atKey "instances" name
    if (← get).instances.has name then throw (.invalid place .definedTwice)
    let id ← reserve
    modify fun l => { l with stagedInstances := l.stagedInstances.insert name id }
    let others ← stageInstances rest
    return { place, id, body } :: others

/-- Take an id for every schema with a body of its own. -/
def reserveBodies : Table Json → Loading (Table InstanceId)
  | [] => return []
  | (name, body) :: rest => do
    if ((← get).registry.get? name).isSome then
      throw (.registry (.duplicateTypeName name))
    if (aliasTarget? body).isSome then reserveBodies rest
    else
      let id ← reserve
      let others ← reserveBodies rest
      return (name, id) :: others

/-- The id a schema gets: a new one for a body, that of its target for another name. -/
def schemaId (bodies : Table InstanceId) (place name : String) (body : Json) :
    Loading (InstanceId × List Pending) := do
  match aliasTarget? body with
  | some target =>
    match (bodies.get? target).or ((← get).target? target) with
    | some id => return (id, [])
    | none => throw (.unknownRef place target)
  | none =>
    match bodies.get? name with
    | some id => return (id, [{ place, id, body }])
    | none => throw (.unknownRef place name)

/-- Stage the schemas of a document. A target that is another name itself must stand before. -/
def stageSchemas (bodies : Table InstanceId) : Table Json → Loading (List Pending)
  | [] => return []
  | (name, body) :: rest => do
    let (id, pending) ← schemaId bodies (Body.atKey "schemas" name) name body
    modify fun l => { l with stagedSchemas := l.stagedSchemas.insert name id }
    let others ← stageSchemas bodies rest
    return pending ++ others

/-- Run a step that reads bodies on the registry of the loader. -/
def reading {α : Type} (step : Reading α) : Loading α := do
  let l ← get
  let (outcome, registry) := step.run.run l.registry
  set { l with registry }
  match outcome with
  | .ok a => return a
  | .error e => throw e

/-- Read the bodies that wait and put each in its place. -/
def readBodies : List Pending → Loading Unit
  | [] => return ()
  | p :: rest => do
    let i ← reading (Body.read (← get).scope p.place p.body)
    match (← get).registry.define p.id i with
    | .ok registry => modify fun l => { l with registry }
    | .error e => throw (.registry e)
    readBodies rest

/-- Everything that can be refused in a document. -/
def stage (d : Document) : Loading Unit := do
  let pendingInstances ← stageInstances d.instances
  let bodies ← reserveBodies d.schemas
  let pendingSchemas ← stageSchemas bodies d.schemas
  readBodies (pendingInstances ++ pendingSchemas)

/-- Make names visible. -/
def bindAll : Table InstanceId → Loading Unit
  | [] => return ()
  | (name, id) :: rest => do
    match (← get).registry.bind name id with
    | .ok registry => modify fun l => { l with registry }
    | .error e => throw (.registry e)
    bindAll rest

/-! ## Loading -/

/-- Load a document. -/
def load (l : Loader) (d : Document) : Except DocumentError Unit × Loader :=
  match l.options.validate with
  | .error e => (.error e, l)
  | .ok () =>
    let (outcome, staged) := (stage d).run.run l
    let cleared := { staged with stagedSchemas := [], stagedInstances := [] }
    match outcome with
    | .error e => (.error e, cleared)
    | .ok () =>
      let named := staged.stagedInstances.foldl (fun t (name, id) => t.insert name id)
        cleared.instances
      (bindAll staged.stagedSchemas).run.run { cleared with instances := named }

/-- Load the document that a text starts with. -/
def loadText (l : Loader) (text : String) : Except DocumentError Unit × Loader :=
  match Document.ofText text with
  | .ok d => l.load d
  | .error e => (.error e, l)

/-- Load the document that a value is. -/
def loadJson (l : Loader) (j : Json) : Except DocumentError Unit × Loader :=
  match Document.ofJson j with
  | .ok d => l.load d
  | .error e => (.error e, l)

end Loader

end SchemaTyping
