import SchemaTyping.Proofs.Document.RuleAttributes

set_option autoImplicit false

/-! # The grammar of rules

`Body.IsSpec` and `Body.IsRule` are the type specifications and the rules among all JSON values. `Body.Written`
says which rule a value describes: it has one candidate for each leaf of its type specification, from left to
right through all lists, and the attributes as they stand. Every inline body among the leaves has an instance
of its own (`Body.WrittenLeaf`), whose rules are written in turn. -/

namespace SchemaTyping

namespace Body

/-! ## The grammar -/

/-- The type names. -/
def kinds : Table Candidate :=
  [("Number", .scalar .number), ("Integer", .scalar .integer), ("String", .scalar .text),
   ("Boolean", .scalar .boolean), ("Date", .scalar .dateTime), ("Array", .array), ("Object", .object)]

mutual

/-- A type specification. Names of instances are those that the scope knows. -/
inductive IsSpec (scope : Scope) : Json → Prop where
  | kind {name : String} (known : name ∈ kinds.names) : IsSpec scope (.text name)
  | reference {name : String} (known : (scope.target? name).isSome) :
      IsSpec scope (.object [(refKey, .text name)])
  | definition {rules : Json.Members} (allRules : ∀ rule ∈ rules, IsRule scope rule.2) :
      IsSpec scope (.object [(schemaKey, .object rules)])
  | listed {items : List Json} : IsSpec scope (.object [(valuesKey, .list items)])
  | keyed {members : Json.Members} : IsSpec scope (.object [(valuesKey, .object members)])
  | alternation {items : List Json} (nonempty : items ≠ []) (allSpecs : ∀ item ∈ items, IsSpec scope item) :
      IsSpec scope (.list items)

/-- A rule: a type specification, or one with attributes beside it. -/
inductive IsRule (scope : Scope) : Json → Prop where
  | bare {j : Json} (isSpec : IsSpec scope j) : IsRule scope j
  | full {members : Json.Members} {spec : Json} (notSpecial : ∀ key ∈ specialKeys, key ∉ members.names)
      (type : ("type", spec) ∈ members) (isSpec : IsSpec scope spec)
      (attributes : ∀ member ∈ members, Fits scope.overrideKey member.1 member.2) :
      IsRule scope (.object members)

end

/-! ## What is written -/

mutual

/-- The leaves of a type specification, from left to right. -/
def leaves : Json → List Json
  | .list items => leavesOfArms items
  | j => [j]

/-- The leaves of the arms of an alternation, from left to right. -/
def leavesOfArms : List Json → List Json
  | [] => []
  | arm :: rest => leaves arm ++ leavesOfArms rest

end

/-- Two lists belong together element by element. Every pair has some ids of its own, and these ids follow
    each other. -/
inductive InTurn {α β : Type} (P : α → β → List InstanceId → Prop) :
    List α → List β → List InstanceId → Prop where
  | nil : InTurn P [] [] []
  | cons {a : α} {b : β} {as : List α} {bs : List β} {ids ids' : List InstanceId} (first : P a b ids)
      (others : InTurn P as bs ids') : InTurn P (a :: as) (b :: bs) (ids ++ ids')

mutual

/-- The candidate for a leaf, and the ids of the inline bodies in it. An inline body has an id of its own,
    after those of the bodies inside it, under which `held?` has the instance it describes. -/
inductive WrittenLeaf (scope : Scope) (held? : InstanceId → Option Instance) :
    Json → Candidate → List InstanceId → Prop where
  | kind {name : String} {candidate : Candidate} (known : (name, candidate) ∈ kinds) :
      WrittenLeaf scope held? (.text name) candidate []
  | reference {name : String} {id : InstanceId} (target : scope.target? name = some id) :
      WrittenLeaf scope held? (.object [(refKey, .text name)]) (.nested id) []
  | definition {rules : Json.Members} {d : Definition} {id : InstanceId} {ids : List InstanceId}
      (paths : d.rules.names = rules.names)
      (allRules : InTurn (Written scope held?) (rules.map (·.2)) (d.rules.map (·.2)) ids)
      (held : held? id = some (.schema d)) :
      WrittenLeaf scope held? (.object [(schemaKey, .object rules)]) (.nested id) (ids ++ [id])
  | listed {items : List Json} {id : InstanceId}
      (held : held? id = some (.values (items.map EnumValue.ofJson))) :
      WrittenLeaf scope held? (.object [(valuesKey, .list items)]) (.nested id) [id]
  | keyed {members : Json.Members} {id : InstanceId}
      (held : held? id = some (.values (members.map fun member => EnumValue.ofJson member.2))) :
      WrittenLeaf scope held? (.object [(valuesKey, .object members)]) (.nested id) [id]

/-- The rule that a value describes, and the ids of the inline bodies in it. -/
inductive Written (scope : Scope) (held? : InstanceId → Option Instance) :
    Json → Rule → List InstanceId → Prop where
  | bare {j : Json} {rule : Rule} {ids : List InstanceId}
      (candidates : InTurn (WrittenLeaf scope held?) (leaves j) rule.candidates ids)
      (attributes : HasAttributes scope.overrideKey [] rule) : Written scope held? j rule ids
  | full {members : Json.Members} {spec : Json} {rule : Rule} {ids : List InstanceId}
      (type : ("type", spec) ∈ members)
      (candidates : InTurn (WrittenLeaf scope held?) (leaves spec) rule.candidates ids)
      (attributes : HasAttributes scope.overrideKey members rule) :
      Written scope held? (.object members) rule ids

end

/-! ## Laws -/

theorem kind?_eq (name : String) : kind? name = kinds.get? name := by
  unfold kind?
  split <;> simp_all [kinds, Table.get?, eq_comm]

theorem InTurn.append {α β : Type} {P : α → β → List InstanceId → Prop} {as as' : List α}
    {bs bs' : List β} {ids ids' : List InstanceId} (h : InTurn P as bs ids) (h' : InTurn P as' bs' ids') :
    InTurn P (as ++ as') (bs ++ bs') (ids ++ ids') := by
  induction h with
  | nil => exact h'
  | cons first _ ih =>
      rw [List.append_assoc]
      exact .cons first ih

theorem InTurn.single {α β : Type} {P : α → β → List InstanceId → Prop} {a : α} {b : β}
    {ids : List InstanceId} (h : P a b ids) : InTurn P [a] [b] ids := by
  simpa using InTurn.cons h .nil

theorem InTurn.ne_nil {α β : Type} {P : α → β → List InstanceId → Prop} {as : List α} {bs : List β}
    {ids : List InstanceId} (h : InTurn P as bs ids) (has : as ≠ []) : bs ≠ [] := by
  cases h with
  | nil => exact absurd rfl has
  | cons _ _ => exact List.cons_ne_nil _ _

theorem isSpec_object_iff {scope : Scope} {members : Json.Members} :
    IsSpec scope (.object members) ↔
      (∃ name, members = [(refKey, .text name)] ∧ (scope.target? name).isSome) ∨
        (∃ rules, members = [(schemaKey, .object rules)] ∧ ∀ rule ∈ rules, IsRule scope rule.2) ∨
        (∃ items, members = [(valuesKey, .list items)]) ∨
        ∃ listed, members = [(valuesKey, .object listed)] := by
  constructor
  · intro h
    cases h with
    | reference known => exact Or.inl ⟨_, rfl, known⟩
    | definition allRules => exact Or.inr (Or.inl ⟨_, rfl, allRules⟩)
    | listed => exact Or.inr (Or.inr (Or.inl ⟨_, rfl⟩))
    | keyed => exact Or.inr (Or.inr (Or.inr ⟨_, rfl⟩))
  · rintro (⟨name, rfl, known⟩ | ⟨rules, rfl, allRules⟩ | ⟨items, rfl⟩ | ⟨listed, rfl⟩)
    · exact .reference known
    · exact .definition allRules
    · exact .listed
    · exact .keyed

/-- There is nothing in a type specification that comes to nothing. -/
theorem IsSpec.leaves_ne_nil {scope : Scope} : ∀ {j : Json}, IsSpec scope j → leaves j ≠ []
  | _, .kind _ | _, .reference _ | _, .definition _ | _, .listed | _, .keyed => List.cons_ne_nil _ _
  | .list [], .alternation nonempty _ => absurd rfl nonempty
  | .list (arm :: _), .alternation _ allSpecs =>
    List.append_ne_nil_of_left_ne_nil (allSpecs arm List.mem_cons_self).leaves_ne_nil _

end Body

end SchemaTyping
