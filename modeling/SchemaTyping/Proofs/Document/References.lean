import SchemaTyping.Proofs.Document.Bodies

set_option autoImplicit false

/-! # What the references of a body point to

A body and the instance that it has become are compared by relations: `Specifies` for type specifications,
`Describes` for bodies. `refer` says which instance a name refers to, and `held?` looks up the instances of
inline bodies. A reference is the instance of its target; an inline body is an instance that the same
relation holds of.

`Body.read_gives` proves them of all that the readers give. The instances of inline bodies are added while
reading, so the relations are stated in every later registry that has kept them. -/

namespace SchemaTyping

/-! ## The relations -/

mutual

/-- The candidates that a type specification stands for. -/
inductive Specifies (held? : InstanceId → Option Instance) (refer : String → Option InstanceId) :
    Json → List Candidate → Prop where
  | kind {name : String} {candidate : Candidate} (known : Body.kind? name = some candidate) :
      Specifies held? refer (.text name) [candidate]
  | reference {members : Json.Members} {target : String} {id : InstanceId}
      (names : members.get? Body.refKey = some (.text target)) (found : refer target = some id) :
      Specifies held? refer (.object members) [.nested id]
  | alternation {items : List Json} {candidates : List Candidate}
      (arms : SpecifiesArms held? refer items candidates) : Specifies held? refer (.list items) candidates
  | inline {members : Json.Members} {i : Instance} {id : InstanceId}
      (noTarget : members.get? Body.refKey = none)
      (special : members.has Body.schemaKey ∨ members.has Body.valuesKey)
      (described : Describes held? refer (.object members) i) (held : held? id = some i) :
      Specifies held? refer (.object members) [.nested id]

/-- The candidates of the arms of an alternation, from left to right. -/
inductive SpecifiesArms (held? : InstanceId → Option Instance) (refer : String → Option InstanceId) :
    List Json → List Candidate → Prop where
  | nil : SpecifiesArms held? refer [] []
  | cons {arm : Json} {rest : List Json} {first others : List Candidate}
      (specifies : Specifies held? refer arm first)
      (specifiesRest : SpecifiesArms held? refer rest others) :
      SpecifiesArms held? refer (arm :: rest) (first ++ others)

/-- The instance that a body has become. -/
inductive Describes (held? : InstanceId → Option Instance) (refer : String → Option InstanceId) :
    Json → Instance → Prop where
  | values {members : Json.Members} {inner : Json} {place : String} {listed : List EnumValue}
      (holder : members.get? Body.valuesKey = some inner)
      (lists : Body.enumValues place inner = .ok listed) :
      Describes held? refer (.object members) (.values listed)
  | schema {members rules : Json.Members} {d : Definition}
      (noHolder : members.get? Body.valuesKey = none)
      (inner : members.get? Body.schemaKey = some (.object rules))
      (declares : Declares held? refer {} rules d) : Describes held? refer (.object members) (.schema d)
  | fields {members : Json.Members} {d : Definition}
      (noHolder : members.get? Body.valuesKey = none)
      (bare : members.get? Body.schemaKey = none)
      (declares : Declares held? refer {} members d) : Describes held? refer (.object members) (.schema d)

/-- A definition with the rules of these members declared one after the other. -/
inductive Declares (held? : InstanceId → Option Instance) (refer : String → Option InstanceId) :
    Definition → Json.Members → Definition → Prop where
  | nil {d : Definition} : Declares held? refer d [] d
  | cons {d d' : Definition} {path : String} {value : Json} {rest : Json.Members} {rule : Rule}
      (first : DescribesRule held? refer value rule)
      (others : Declares held? refer (d.insert path rule) rest d') :
      Declares held? refer d ((path, value) :: rest) d'

/-- The rule that a value has become. Its attributes have no part in what it points to. -/
inductive DescribesRule (held? : InstanceId → Option Instance) (refer : String → Option InstanceId) :
    Json → Rule → Prop where
  | full {members : Json.Members} {spec : Json} {rule : Rule} (isFull : Body.isFullRule members)
      (type : members.get? "type" = some spec) (specifies : Specifies held? refer spec rule.candidates) :
      DescribesRule held? refer (.object members) rule
  | bare {value : Json} {rule : Rule}
      (notFull : ∀ members, value = .object members → ¬ Body.isFullRule members)
      (specifies : Specifies held? refer value rule.candidates) : DescribesRule held? refer value rule

end

/-! ## Composing steps -/

/-- The instances from `n` on are in both registries the same. -/
def Registry.KeptFrom (n : Nat) (r s : Registry) : Prop :=
  ∀ id, n ≤ id.index → r.Has id → s.instance? id = r.instance? id

/-- On a registry with at least `n` instances the step only adds instances, and its result is good in
    every registry that keeps those from `n` on. A name that is refused as undefined refers to nothing. -/
structure Reading.Gives {α : Type} (n : Nat) (refer : String → Option InstanceId)
    (good : Registry → α → Prop) (m : Reading α) : Prop where
  ok : ∀ {r r' : Registry} {a : α}, n ≤ r.instances.length → exec m r = (.ok a, r') →
    r.Extends r' ∧ ∀ s, r'.KeptFrom n s → good s a
  undefined : ∀ {r : Registry} {place name : String},
    (exec m r).1 = .error (.unknownRef place name) → refer name = none

namespace Reading

variable {α β : Type} {n : Nat} {refer : String → Option InstanceId} {good : Registry → α → Prop}
variable {goodAfter : Registry → β → Prop}

theorem gives_pure {a : α} (h : ∀ s, good s a) : Gives n refer good (pure a) where
  ok := fun _ hrun => by
    cases hrun
    exact ⟨.refl _, fun s _ => h s⟩
  undefined := fun hrun => by cases hrun

theorem gives_throw {e : DocumentError} (h : ∀ place name, e = .unknownRef place name → refer name = none) :
    Gives n refer good (throw e : Reading α) where
  ok := fun _ hrun => by cases hrun
  undefined := fun hrun => h _ _ (Except.error.inj hrun)

theorem gives_liftM {x : Except DocumentError α} (hok : ∀ a, x = .ok a → ∀ s, good s a)
    (herror : ∀ place name, x ≠ .error (.unknownRef place name)) :
    Gives n refer good (liftM x : Reading α) where
  ok := fun _ hrun => by
    rw [exec_liftM] at hrun
    cases hrun
    exact ⟨.refl _, fun s _ => hok _ rfl s⟩
  undefined := fun hrun => absurd hrun (herror _ _)

theorem gives_bind {m : Reading α} {f : α → Reading β} (hm : Gives n refer good m)
    (hf : ∀ a, Gives n refer (fun s b => good s a → goodAfter s b) (f a)) :
    Gives n refer goodAfter (m >>= f) where
  ok := fun hn hrun => by
    obtain ⟨a, r', ha, hb⟩ := exec_bind_eq_ok.1 hrun
    obtain ⟨hext, hgood⟩ := hm.ok hn ha
    obtain ⟨hext', hgood'⟩ := (hf a).ok (Nat.le_trans hn hext.length_le) hb
    refine ⟨hext.trans hext', fun s hs => hgood' s hs (hgood s fun id hid hhas => ?_)⟩
    rw [hs id hid (hext'.has hhas)]
    exact hext'.instance?_eq hhas
  undefined := fun hrun => by
    rcases exec_bind_eq_error.1 hrun with hm' | ⟨a, _, -, hb⟩
    · exact hm.undefined hm'
    · exact (hf a).undefined hb

theorem Gives.imp {m : Reading α} {good' : Registry → α → Prop} (hm : Gives n refer good m)
    (h : ∀ s a, good s a → good' s a) : Gives n refer good' m where
  ok := fun hn hrun => (hm.ok hn hrun).imp_right fun hgood s hs => h s _ (hgood s hs)
  undefined := hm.undefined

/-- An instance that is added is there from then on. -/
theorem gives_add (i : Instance) :
    Gives n refer (fun s id => s.instance? id = some i)
      (modifyGet fun registry => ((registry.add i).2, (registry.add i).1) : Reading InstanceId) where
  ok := fun {r r' _} hn hrun => by
    rw [exec_modifyGet] at hrun
    cases hrun
    refine ⟨r.extends_add i, fun s hs => (hs _ hn (r.has_add_snd i)).trans ?_⟩
    simp [Registry.instance?, Registry.add]
  undefined := fun hrun => by
    rw [exec_modifyGet] at hrun
    cases hrun

end Reading

/-! ## Readers -/

namespace Body

open Reading

variable {scope : Scope} {n : Nat}

theorem refuse_gives {α : Type} {good : Registry → α → Prop} (place : String) (o : Objection) :
    Gives n scope.target? good (liftM (refuse place o : Except DocumentError α) : Reading α) :=
  gives_liftM (fun _ h => by cases h) fun _ _ h => by cases h

theorem alone_gives (place : String) (members : Json.Members) (key : String) :
    Gives n scope.target? (fun _ _ => True) (liftM (alone place members key) : Reading Unit) := by
  refine gives_liftM (fun _ _ _ => trivial) fun _ _ he => ?_
  unfold alone refuse at he
  split at he <;> cases he

theorem bareRule_gives (good : Registry → List Candidate → Prop) (candidates : List Candidate) :
    Gives n scope.target? (fun s rule => good s candidates → good s rule.candidates)
      (liftM (bareRule candidates)) := by
  cases candidates with
  | nil => exact gives_liftM (fun _ h => by cases h) fun _ _ h => by cases h
  | cons first rest =>
      refine gives_liftM (fun rule h s hgood => ?_) fun _ _ h => by cases h
      cases h
      exact hgood

theorem fullRule_gives {good : Registry → List Candidate → Prop} {type : Reading (List Candidate)}
    (place : String) (members : Json.Members) (htype : Gives n scope.target? good type) :
    Gives n scope.target? (fun s rule => good s rule.candidates)
      (fullRule scope place members type) := by
  have hrest : Gives n scope.target? (fun s (rule : Rule) => good s rule.candidates)
      (do
        let rule ← bareRule (← type)
        let complete : Except DocumentError Rule := members.foldlM (readAttribute scope place) rule
        complete) := by
    refine gives_bind htype fun candidates => ?_
    refine gives_bind (bareRule_gives good candidates) fun rule => ?_
    refine gives_liftM (fun rule' h s hrule hcandidates => ?_) fun place name h => ?_
    · rw [foldlM_readAttribute_eq_ok h]
      exact hrule hcandidates
    · obtain ⟨o, ho⟩ := foldlM_readAttribute_eq_error h
      cases ho
  unfold fullRule
  dsimp only
  split
  · have hrefuse : Gives n scope.target? (fun _ _ => True)
        (liftM (refuse place .typeMissing : Except _ Unit)) := refuse_gives place .typeMissing
    exact gives_bind hrefuse fun _ => hrest.imp fun _ _ h _ => h
  · exact hrest

theorem ruleOf_gives {type spec : Reading (List Candidate)} (place : String) (value : Json)
    (htype : Gives n scope.target? (fun s candidates => ∃ members inner, value = .object members ∧
      Table.get? "type" members = some inner ∧ Specifies s.instance? scope.target? inner candidates) type)
    (hspec : Gives n scope.target? (fun s => Specifies s.instance? scope.target? value) spec) :
    Gives n scope.target? (fun s => DescribesRule s.instance? scope.target? value)
      (ruleOf scope place value type spec) := by
  have hbare (hnot : ∀ members, value = .object members → ¬ isFullRule members) :
      Gives n scope.target? (fun s => DescribesRule s.instance? scope.target? value)
        (do bareRule (← spec)) := by
    refine gives_bind hspec fun candidates => ?_
    exact (bareRule_gives (fun s => Specifies s.instance? scope.target? value) candidates).imp
      fun s rule hrule hcandidates => .bare hnot (hrule hcandidates)
  unfold ruleOf
  split
  · next members =>
      split
      · next hfull =>
          refine (fullRule_gives place members htype).imp fun s rule hrule => ?_
          obtain ⟨members', inner, heq, hinner, hspecifies⟩ := hrule
          cases heq
          exact .full hfull hinner hspecifies
      · next hfull =>
          refine hbare fun members' heq => ?_
          cases heq
          exact hfull
  · next hobject => exact hbare fun members heq => absurd heq (hobject members)

theorem bodyOf_gives {schema fields : Reading Definition} (place : String) (members : Json.Members)
    (hschema : Gives n scope.target? (fun s d => ∃ rules,
      members.get? schemaKey = some (.object rules) ∧ Declares s.instance? scope.target? {} rules d) schema)
    (hfields : Gives n scope.target? (fun s d => Declares s.instance? scope.target? {} members d) fields) :
    Gives n scope.target? (fun s => Describes s.instance? scope.target? (.object members))
      (bodyOf place members schema fields) := by
  have halone (key : String) : Gives n scope.target? (fun _ _ => True)
      (liftM (alone place members key) : Reading Unit) :=
    alone_gives place members key
  unfold bodyOf
  split
  · next inner hinner =>
      refine gives_bind (halone valuesKey) fun _ => ?_
      have hlisted : Gives n scope.target? (fun _ listed => enumValues place inner = .ok listed)
          (liftM (enumValues place inner) : Reading (List EnumValue)) := by
        refine gives_liftM (fun listed h _ => h) fun _ _ he => ?_
        unfold enumValues refuse at he
        split at he <;> cases he
      exact gives_bind hlisted fun listed => gives_pure fun s h _ => .values hinner h
  · next hvalues =>
      split
      · refine gives_bind (halone schemaKey) fun _ => ?_
        refine gives_bind hschema fun d => gives_pure fun s hd _ => ?_
        obtain ⟨rules, hrules, hdeclares⟩ := hd
        exact .schema hvalues hrules hdeclares
      · next hbare =>
          refine gives_bind hfields fun d => gives_pure fun s hd => ?_
          exact .fields hvalues (Option.isNone_iff_eq_none.1 (by simpa [Table.has] using hbare)) hd

theorem objectCandidates_gives {schema fields : Reading Definition} (place : String)
    (members : Json.Members)
    (hschema : Gives n scope.target? (fun s d => ∃ rules,
      members.get? schemaKey = some (.object rules) ∧ Declares s.instance? scope.target? {} rules d) schema)
    (hfields : Gives n scope.target? (fun s d => Declares s.instance? scope.target? {} members d) fields) :
    Gives n scope.target? (fun s => Specifies s.instance? scope.target? (.object members))
      (objectCandidates scope place members schema fields) := by
  unfold objectCandidates
  split
  · next target htarget =>
      refine gives_bind (alone_gives _ _ _) fun _ => ?_
      split
      · split
        · next id hid => exact gives_pure fun s _ => .reference htarget hid
        · next hnone =>
            refine gives_throw fun _ name he => ?_
            cases he
            exact hnone
      · exact refuse_gives _ _
  · next htarget =>
      split
      · next hspecial =>
          refine gives_bind (bodyOf_gives place members hschema hfields) fun i => ?_
          refine gives_bind (gives_add i) fun id => gives_pure fun s hheld hi => ?_
          exact .inline htarget (by simpa using hspecial) hi hheld
      · exact refuse_gives _ _

mutual

theorem readCandidates_gives (place : String) (j : Json) :
    Gives n scope.target? (fun s => Specifies s.instance? scope.target? j)
      (readCandidates scope place j) := by
  cases j with
  | text name =>
      rw [readCandidates]
      split
      · next candidate hkind => exact gives_pure fun _ => .kind hkind
      · exact gives_throw fun _ _ he => by cases he
  | list items =>
      have harms := readArms_gives place items 0
      rw [readCandidates]
      cases items with
      | nil => exact gives_throw fun _ _ he => by cases he
      | cons arm rest => exact harms.imp fun _ _ h => .alternation h
  | object members =>
      rw [readCandidates]
      exact objectCandidates_gives place members (readSchema_gives place members)
        (readRules_gives place {} members)
  | null => exact refuse_gives _ _
  | boolean b => exact refuse_gives _ _
  | number m => exact refuse_gives _ _

theorem readArms_gives (place : String) (items : List Json) (i : Nat) :
    Gives n scope.target? (fun s => SpecifiesArms s.instance? scope.target? items)
      (readArms scope place i items) := by
  cases items with
  | nil =>
      rw [readArms]
      exact gives_pure fun _ => .nil
  | cons arm rest =>
      rw [readArms]
      refine gives_bind (readCandidates_gives _ arm) fun first => ?_
      refine gives_bind (readArms_gives place rest (i + 1)) fun others => ?_
      exact gives_pure fun s hothers hfirst => .cons hfirst hothers

theorem readSchema_gives (place : String) (members : List (String × Json)) :
    Gives n scope.target? (fun s d => ∃ rules, Table.get? schemaKey members = some (.object rules) ∧
      Declares s.instance? scope.target? {} rules d) (readSchema scope place members) := by
  cases members with
  | nil => rw [readSchema]; exact refuse_gives _ _
  | cons entry rest =>
      obtain ⟨key, value⟩ := entry
      have hrest := readSchema_gives place rest
      by_cases hkey : key = schemaKey
      · cases value with
        | object rules =>
            simp only [readSchema, if_pos hkey]
            exact (readRules_gives place {} rules).imp fun s d hd =>
              ⟨rules, by rw [Table.get?, if_pos hkey], hd⟩
        | null => simp only [readSchema, if_pos hkey]; exact refuse_gives _ _
        | boolean b => simp only [readSchema, if_pos hkey]; exact refuse_gives _ _
        | number m => simp only [readSchema, if_pos hkey]; exact refuse_gives _ _
        | text s => simp only [readSchema, if_pos hkey]; exact refuse_gives _ _
        | list items => simp only [readSchema, if_pos hkey]; exact refuse_gives _ _
      · simp only [Table.get?, if_neg hkey]
        cases value <;> simpa only [readSchema, if_neg hkey] using hrest

theorem readType_gives (place : String) (j : Json) :
    Gives n scope.target? (fun s candidates => ∃ members inner, j = .object members ∧
      Table.get? "type" members = some inner ∧ Specifies s.instance? scope.target? inner candidates)
      (readType scope place j) := by
  cases j with
  | object members =>
      rw [readType]
      exact (readTypeMember_gives place members).imp fun s candidates ⟨inner, hinner, hspecifies⟩ =>
        ⟨members, inner, rfl, hinner, hspecifies⟩
  | null => exact refuse_gives _ _
  | boolean b => exact refuse_gives _ _
  | number m => exact refuse_gives _ _
  | text s => exact refuse_gives _ _
  | list items => exact refuse_gives _ _

theorem readTypeMember_gives (place : String) (members : List (String × Json)) :
    Gives n scope.target? (fun s candidates => ∃ inner, Table.get? "type" members = some inner ∧
      Specifies s.instance? scope.target? inner candidates) (readTypeMember scope place members) := by
  cases members with
  | nil => rw [readTypeMember]; exact refuse_gives _ _
  | cons entry rest =>
      obtain ⟨key, value⟩ := entry
      rw [readTypeMember]
      split
      · next hkey =>
          exact (readCandidates_gives _ value).imp fun s candidates h =>
            ⟨value, by rw [Table.get?, if_pos hkey], h⟩
      · next hkey =>
          simp only [Table.get?, if_neg hkey]
          exact readTypeMember_gives place rest

theorem readRules_gives (place : String) (d : Definition) (members : List (String × Json)) :
    Gives n scope.target? (fun s => Declares s.instance? scope.target? d members)
      (readRules scope place d members) := by
  cases members with
  | nil =>
      rw [readRules]
      exact gives_pure fun _ => .nil
  | cons entry rest =>
      obtain ⟨path, value⟩ := entry
      rw [readRules]
      refine gives_bind (ruleOf_gives _ value (readType_gives _ value)
        (readCandidates_gives _ value)) fun rule => ?_
      exact (readRules_gives place (d.insert path rule) rest).imp fun s d' hrest hrule =>
        .cons hrule hrest

end

/-- **Reading a body** gives an instance that the body describes: its references are the instances their
    targets refer to. A target that is refused as undefined refers to nothing. -/
theorem read_gives (scope : Scope) (place : String) (j : Json) :
    Gives n scope.target? (fun s => Describes s.instance? scope.target? j) (read scope place j) := by
  cases j with
  | object members =>
      exact bodyOf_gives place members (readSchema_gives place members)
        (readRules_gives place {} members)
  | null => exact refuse_gives _ _
  | boolean b => exact refuse_gives _ _
  | number m => exact refuse_gives _ _
  | text s => exact refuse_gives _ _
  | list items => exact refuse_gives _ _

end Body

end SchemaTyping
