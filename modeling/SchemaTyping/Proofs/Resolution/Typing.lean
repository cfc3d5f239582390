import SchemaTyping.Proofs.Outcome
import SchemaTyping.Proofs.Registry.Names
import SchemaTyping.Resolve

set_option autoImplicit false

/-! # The rules of typing

`Typing r d path t` states, without any bound on nesting, that the field at `path` of `d` has the type
`t`; its derivations are trees with a rule at each node. `Typing.steps` counts the levels that the longest
branch of a derivation goes down: to the elements of a list, to a field of an object, to a field of an
anonymous definition.

`Resolver.typeAt` finds a type exactly when there is a derivation with fewer steps than levels. Towards
derivations the proof is an induction on the levels, one lemma for each kind of list that the resolver
goes through; from derivations it is an induction on the derivation. -/

namespace SchemaTyping

/-! ## The judgement -/

mutual

/-- Derivations of the type of the field at a path of a definition. -/
inductive Typing (r : Resolver) : Definition → String → TypeExpr → Type where
  /-- An explicit name wins over the candidates. -/
  | named {d : Definition} {path : String} {rule : Rule} {name : String}
      (declared : d.rule? path = some rule) (explicit : rule.explicitName = some name) :
      Typing r d path (.reference name)
  /-- One candidate gives its type bare. -/
  | single {d : Definition} {path : String} {rule : Rule} {arm : TypeExpr}
      (declared : d.rule? path = some rule) (implicit : rule.explicitName = none)
      (arms : ArmTypings r d path rule.candidates [arm]) : Typing r d path arm
  /-- Several candidates make a union, in their order. -/
  | several {d : Definition} {path : String} {rule : Rule} {arms : List TypeExpr}
      (declared : d.rule? path = some rule) (implicit : rule.explicitName = none)
      (many : 2 ≤ arms.length) (typed : ArmTypings r d path rule.candidates arms) :
      Typing r d path (.union arms)

/-- Derivations of the types of several candidates of one rule. -/
inductive ArmTypings (r : Resolver) :
    Definition → String → List Candidate → List TypeExpr → Type where
  | nil {d : Definition} {path : String} : ArmTypings r d path [] []
  | cons {d : Definition} {path : String} {candidate : Candidate} {arm : TypeExpr}
      {candidates : List Candidate} {arms : List TypeExpr}
      (first : CandidateTyping r d path candidate arm)
      (others : ArmTypings r d path candidates arms) :
      ArmTypings r d path (candidate :: candidates) (arm :: arms)

/-- Derivations of the type of one candidate. -/
inductive CandidateTyping (r : Resolver) :
    Definition → String → Candidate → TypeExpr → Type where
  | scalar {d : Definition} {path : String} (kind : ScalarKind) :
      CandidateTyping r d path (.scalar kind) (.scalar (r.options.scalarNames.name kind))
  | array {d : Definition} {path : String} {item : TypeExpr}
      (element : Typing r d (Path.join path r.options.wildcardSegment) item) :
      CandidateTyping r d path .array (.array item)
  | object {d : Definition} {path : String} {fields : List (Field TypeExpr)}
      (inhabited : fields ≠ [])
      (typed : FieldTypings r d path (d.childKeys path r.options.wildcardSegment) fields) :
      CandidateTyping r d path .object (.object fields)
  | opaqueObject {d : Definition} {path : String}
      (childless : d.childKeys path r.options.wildcardSegment = []) :
      CandidateTyping r d path .object .anyObject
  /-- An instance with names is a reference to the first of them. -/
  | reference {d : Definition} {path : String} {id : InstanceId} {name : String}
      {aliases : List String} (bound : r.registry.namesOf id = name :: aliases)
      (allowed : aliases = [] ∨ r.options.references ≠ .strict) :
      CandidateTyping r d path (.nested id) (.reference name)
  /-- An anonymous definition is written out: its fields have types in it, not in the one around it. -/
  | inline {d nested : Definition} {path : String} {id : InstanceId}
      {fields : List (Field TypeExpr)} (unbound : r.registry.namesOf id = [])
      (held : r.registry.instance? id = some (.schema nested)) (inhabited : fields ≠ [])
      (typed : FieldTypings r nested "" (nested.childKeys "" r.options.wildcardSegment) fields) :
      CandidateTyping r d path (.nested id) (.object fields)
  | opaqueInline {d nested : Definition} {path : String} {id : InstanceId}
      (unbound : r.registry.namesOf id = [])
      (held : r.registry.instance? id = some (.schema nested))
      (childless : nested.childKeys "" r.options.wildcardSegment = []) :
      CandidateTyping r d path (.nested id) .anyObject
  /-- An anonymous holder of literals is a choice of them, each at its first place. -/
  | values {d : Definition} {path : String} {id : InstanceId} {literals : List Literal}
      (unbound : r.registry.namesOf id = [])
      (held : r.registry.instance? id = some (.values (literals.map .literal))) :
      CandidateTyping r d path (.nested id) (.literals literals.eraseDups)

/-- Derivations of the fields with these keys below a path, each optional as its own rule says. -/
inductive FieldTypings (r : Resolver) :
    Definition → String → List String → List (Field TypeExpr) → Type where
  | nil {d : Definition} {parent : String} : FieldTypings r d parent [] []
  | cons {d : Definition} {parent key : String} {rule : Rule} {type : TypeExpr}
      {keys : List String} {fields : List (Field TypeExpr)}
      (declared : d.rule? (Path.join parent key) = some rule)
      (typed : Typing r d (Path.join parent key) type)
      (others : FieldTypings r d parent keys fields) :
      FieldTypings r d parent (key :: keys)
        ({ name := key, type, optional := rule.optionality.holds } :: fields)

end

/-! ## Steps -/

variable {r : Resolver}

mutual

/-- How many levels the longest branch of a derivation goes down. -/
def Typing.steps {d : Definition} {path : String} {t : TypeExpr} : Typing r d path t → Nat
  | .named .. => 0
  | .single _ _ arms => arms.steps
  | .several _ _ _ arms => arms.steps

@[inherit_doc Typing.steps]
def ArmTypings.steps {d : Definition} {path : String} {candidates : List Candidate}
    {arms : List TypeExpr} : ArmTypings r d path candidates arms → Nat
  | .nil => 0
  | .cons first others => max first.steps others.steps

@[inherit_doc Typing.steps]
def CandidateTyping.steps {d : Definition} {path : String} {candidate : Candidate} {t : TypeExpr} :
    CandidateTyping r d path candidate t → Nat
  | .array element => element.steps + 1
  | .object _ typed => typed.steps
  | .inline _ _ _ typed => typed.steps
  | _ => 0

@[inherit_doc Typing.steps]
def FieldTypings.steps {d : Definition} {parent : String} {keys : List String}
    {fields : List (Field TypeExpr)} : FieldTypings r d parent keys fields → Nat
  | .nil => 0
  | .cons _ typed others => max (typed.steps + 1) others.steps

end

/-! ## Parts of the resolver -/

theorem TypeExpr.ofFields_of_ne_nil {fields : List (Field TypeExpr)} (h : fields ≠ []) :
    TypeExpr.ofFields fields = .object fields := by
  cases fields with
  | nil => exact absurd rfl h
  | cons field fields => rfl

theorem TypeExpr.oneOf_of_two_le {arms : List TypeExpr} (h : 2 ≤ arms.length) :
    TypeExpr.oneOf arms = .union arms := by
  match arms, h with
  | _ :: _ :: _, _ => rfl

/-- The field with a key below a path, from the resolution of the next level. -/
def Resolver.fieldAt (next : Resolver.Level) (d : Definition) (parent key : String) :
    Except ResolveError (Field TypeExpr) := do
  let (type, optional) ← next d (Path.join parent key)
  return { name := key, type, optional }

theorem Resolver.fieldsBelow_eq (next : Resolver.Level) (d : Definition) (parent : String) :
    r.fieldsBelow next d parent
      = (d.childKeys parent r.options.wildcardSegment).mapM (Resolver.fieldAt next d parent) := rfl

theorem Resolver.fieldAt_eq_ok {next : Resolver.Level} {d : Definition} {parent key : String}
    {field : Field TypeExpr} :
    Resolver.fieldAt next d parent key = .ok field ↔
      next d (Path.join parent key) = .ok (field.type, field.optional) ∧ field.name = key := by
  unfold Resolver.fieldAt
  rw [Outcome.bind_eq_ok]
  constructor
  · rintro ⟨⟨type, optional⟩, hnext, h⟩
    cases h
    exact ⟨hnext, rfl⟩
  · rintro ⟨hnext, rfl⟩
    exact ⟨_, hnext, rfl⟩

/-! ## From types to derivations -/

/-- Every type that a level of resolution finds has a derivation with fewer steps than `bound`, and comes
    with the flag of the rule that declares the field. -/
def Resolver.SoundBelow (r : Resolver) (bound : Nat) (next : Resolver.Level) : Prop :=
  ∀ (d : Definition) (path : String) (t : TypeExpr) (optional : Bool),
    next d path = .ok (t, optional) →
      ∃ rule, d.rule? path = some rule ∧ optional = rule.optionality.holds ∧
        ∃ δ : Typing r d path t, δ.steps < bound

variable {bound : Nat} {next : Resolver.Level}

theorem FieldTypings.exists_of_mapM (hnext : r.SoundBelow bound next) {d : Definition}
    {parent : String} {keys : List String} :
    ∀ {fields : List (Field TypeExpr)},
      keys.mapM (Resolver.fieldAt next d parent) = .ok fields →
        ∃ δ : FieldTypings r d parent keys fields, δ.steps ≤ bound := by
  induction keys with
  | nil =>
      intro fields h
      obtain rfl := Outcome.mapM_nil_eq_ok.1 h
      exact ⟨.nil, Nat.zero_le _⟩
  | cons key keys ih =>
      intro fields h
      obtain ⟨⟨name, type, optional⟩, others, hfield, hothers, rfl⟩ := Outcome.mapM_cons_eq_ok.1 h
      obtain ⟨hat, rfl⟩ := Resolver.fieldAt_eq_ok.1 hfield
      obtain ⟨rule, hrule, rfl, δ, hδ⟩ := hnext _ _ _ _ hat
      obtain ⟨ρ, hρ⟩ := ih hothers
      exact ⟨.cons hrule δ ρ, Nat.max_le.2 ⟨hδ, hρ⟩⟩

theorem FieldTypings.length_eq {d : Definition} {parent : String} {keys : List String}
    {fields : List (Field TypeExpr)} : FieldTypings r d parent keys fields →
      fields.length = keys.length
  | .nil => rfl
  | .cons _ _ others => by rw [List.length_cons, List.length_cons, others.length_eq]

/-- The fields of an object have the keys they were asked for as names. -/
theorem FieldTypings.names {d : Definition} {parent : String} {keys : List String}
    {fields : List (Field TypeExpr)} : FieldTypings r d parent keys fields → fields.map (·.name) = keys
  | .nil => rfl
  | .cons _ _ others => by rw [List.map_cons, others.names]

/-- An object has a type when its fields have, and there is a rule for it with and without fields. -/
theorem Resolver.ofFields_eq_ok (hnext : r.SoundBelow bound next) {d : Definition}
    {parent : String} {t : TypeExpr}
    (h : (r.fieldsBelow next d parent).map TypeExpr.ofFields = .ok t) :
    (d.childKeys parent r.options.wildcardSegment = [] ∧ t = .anyObject) ∨
      ∃ fields, fields ≠ [] ∧ t = .object fields ∧
        ∃ δ : FieldTypings r d parent (d.childKeys parent r.options.wildcardSegment) fields,
          δ.steps ≤ bound := by
  obtain ⟨fields, hfields, rfl⟩ := Outcome.map_eq_ok.1 h
  obtain ⟨δ, hδ⟩ := FieldTypings.exists_of_mapM hnext hfields
  cases fields with
  | nil => exact Or.inl ⟨List.eq_nil_of_length_eq_zero δ.length_eq.symm, rfl⟩
  | cons field fields => exact Or.inr ⟨_, List.cons_ne_nil _ _, rfl, δ, hδ⟩

theorem literalsType_eq_ok {path : String} {values : List EnumValue} {t : TypeExpr} :
    literalsType path values = .ok t ↔
      ∃ literals : List Literal, values = literals.map .literal ∧
        t = .literals literals.eraseDups := by
  have hmapM : ∀ literals, values.mapM (EnumValue.literal? path) = .ok literals ↔
      values = literals.map .literal := by
    induction values with
    | nil => intro literals; rw [Outcome.mapM_nil_eq_ok]; cases literals <;> simp
    | cons value values ih =>
        intro literals
        rw [Outcome.mapM_cons_eq_ok]
        constructor
        · rintro ⟨l, ls, hvalue, hvalues, rfl⟩
          cases value with
          | literal l' =>
              cases hvalue
              rw [List.map_cons, (ih ls).1 hvalues]
          | structured j => cases hvalue
        · intro h
          cases literals with
          | nil => cases h
          | cons l ls =>
              obtain ⟨rfl, hvalues⟩ := List.cons.inj h
              exact ⟨l, ls, rfl, (ih ls).2 hvalues, rfl⟩
  unfold literalsType
  rw [Outcome.bind_eq_ok]
  constructor
  · rintro ⟨literals, hliterals, h⟩
    exact ⟨literals, (hmapM literals).1 hliterals, (Except.ok.inj h).symm⟩
  · rintro ⟨literals, hliterals, rfl⟩
    exact ⟨literals, (hmapM literals).2 hliterals, rfl⟩

theorem CandidateTyping.exists_of_instanceType (hnext : r.SoundBelow bound next) {d : Definition}
    {path : String} {id : InstanceId} {t : TypeExpr} (h : r.instanceType next path id = .ok t) :
    ∃ δ : CandidateTyping r d path (.nested id) t, δ.steps ≤ bound := by
  unfold Resolver.instanceType at h
  rw [Registry.reference?_eq] at h
  cases hnames : r.registry.namesOf id with
  | cons name aliases =>
      simp only [hnames] at h
      split at h
      · cases h
      · next hallowed =>
          cases h
          have hpolicy : aliases = [] ∨ r.options.references ≠ .strict := by
            cases aliases with
            | nil => exact Or.inl rfl
            | cons other aliases => exact Or.inr fun hstrict => hallowed ⟨rfl, hstrict⟩
          exact ⟨.reference hnames hpolicy, Nat.zero_le _⟩
  | nil =>
      simp only [hnames] at h
      cases hheld : r.registry.instance? id with
      | none => simp [hheld] at h
      | some held =>
          cases held with
          | schema nested =>
              simp only [hheld] at h
              rcases Resolver.ofFields_eq_ok hnext h with
                ⟨hnone, rfl⟩ | ⟨fields, hsome, rfl, δ, hδ⟩
              · exact ⟨.opaqueInline hnames hheld hnone, Nat.zero_le _⟩
              · exact ⟨.inline hnames hheld hsome δ, hδ⟩
          | values values =>
              simp only [hheld] at h
              obtain ⟨literals, rfl, rfl⟩ := literalsType_eq_ok.1 h
              exact ⟨.values hnames hheld, Nat.zero_le _⟩

theorem CandidateTyping.exists_of_candidateType (hnext : r.SoundBelow bound next) {d : Definition}
    {path : String} {candidate : Candidate} {t : TypeExpr}
    (h : r.candidateType next d path candidate = .ok t) :
    ∃ δ : CandidateTyping r d path candidate t, δ.steps ≤ bound := by
  cases candidate with
  | scalar kind =>
      cases h
      exact ⟨.scalar kind, Nat.zero_le _⟩
  | array =>
      obtain ⟨⟨item, optional⟩, hitem, rfl⟩ := Outcome.map_eq_ok.1 h
      obtain ⟨_, _, _, δ, hδ⟩ := hnext _ _ _ _ hitem
      exact ⟨.array δ, hδ⟩
  | object =>
      rcases Resolver.ofFields_eq_ok hnext h with ⟨hnone, rfl⟩ | ⟨fields, hsome, rfl, δ, hδ⟩
      · exact ⟨.opaqueObject hnone, Nat.zero_le _⟩
      · exact ⟨.object hsome δ, hδ⟩
  | nested id => exact CandidateTyping.exists_of_instanceType hnext h

theorem ArmTypings.exists_of_mapM (hnext : r.SoundBelow bound next) {d : Definition}
    {path : String} {candidates : List Candidate} :
    ∀ {arms : List TypeExpr}, candidates.mapM (r.candidateType next d path) = .ok arms →
      ∃ δ : ArmTypings r d path candidates arms, δ.steps ≤ bound := by
  induction candidates with
  | nil =>
      intro arms h
      obtain rfl := Outcome.mapM_nil_eq_ok.1 h
      exact ⟨.nil, Nat.zero_le _⟩
  | cons candidate candidates ih =>
      intro arms h
      obtain ⟨arm, others, harm, hothers, rfl⟩ := Outcome.mapM_cons_eq_ok.1 h
      obtain ⟨δ, hδ⟩ := CandidateTyping.exists_of_candidateType hnext harm
      obtain ⟨ρ, hρ⟩ := ih hothers
      exact ⟨.cons δ ρ, Nat.max_le.2 ⟨hδ, hρ⟩⟩

theorem ArmTypings.length_eq {d : Definition} {path : String} {candidates : List Candidate}
    {arms : List TypeExpr} : ArmTypings r d path candidates arms →
      arms.length = candidates.length
  | .nil => rfl
  | .cons _ others => by rw [List.length_cons, List.length_cons, others.length_eq]

theorem Typing.exists_of_ruleType (hnext : r.SoundBelow bound next) {d : Definition}
    {path : String} {rule : Rule} {t : TypeExpr} (hrule : d.rule? path = some rule)
    (h : r.ruleType next d path rule = .ok t) :
    ∃ δ : Typing r d path t, δ.steps ≤ bound := by
  unfold Resolver.ruleType at h
  cases hname : rule.explicitName with
  | some name =>
      simp only [hname] at h
      cases h
      exact ⟨.named hrule hname, Nat.zero_le _⟩
  | none =>
      simp only [hname] at h
      obtain ⟨arms, harms, h⟩ := Outcome.bind_eq_ok.1 h
      cases h
      obtain ⟨δ, hδ⟩ := ArmTypings.exists_of_mapM hnext harms
      -- a rule has a candidate, so there is an arm
      match arms, δ, hδ with
      | [], δ, _ =>
          exact absurd (List.eq_nil_of_length_eq_zero δ.length_eq.symm) rule.candidates_ne_nil
      | [arm], δ, hδ => exact ⟨.single hrule hname δ, hδ⟩
      | arm :: arm' :: arms, δ, hδ =>
          have hmany : 2 ≤ (arm :: arm' :: arms).length := Nat.le_add_left 2 arms.length
          exact ⟨.several hrule hname hmany δ, hδ⟩

/-- **Every type found with `levels` levels has a derivation with fewer steps.** -/
theorem Resolver.typeAt_soundBelow (levels : Nat) : r.SoundBelow levels (r.typeAt levels) := by
  induction levels with
  | zero => intro d path t optional h; simp [Resolver.typeAt] at h
  | succ levels ih =>
      intro d path t optional h
      unfold Resolver.typeAt at h
      cases hrule : d.rule? path with
      | none => simp [hrule] at h
      | some rule =>
          simp only [hrule] at h
          obtain ⟨type, htype, h⟩ := Outcome.bind_eq_ok.1 h
          cases h
          obtain ⟨δ, hδ⟩ := Typing.exists_of_ruleType ih hrule htype
          exact ⟨rule, rfl, rfl, δ, Nat.lt_succ_of_le hδ⟩

/-! ## From derivations to types -/

/-- An instance with names is a reference, unless it has several and that is refused. -/
theorem Resolver.instanceType_of_namesOf_eq_cons {path : String} {id : InstanceId} {name : String}
    {aliases : List String} (bound : r.registry.namesOf id = name :: aliases)
    (allowed : aliases = [] ∨ r.options.references ≠ .strict) :
    r.instanceType next path id = .ok (.reference name) := by
  have hpolicy : ¬ (Reference.isAmbiguous ⟨name, aliases⟩ = true ∧
      r.options.references = .strict) := by
    rintro ⟨hambiguous, hstrict⟩
    rcases allowed with rfl | hlenient
    · cases hambiguous
    · exact hlenient hstrict
  simp only [Resolver.instanceType, Registry.reference?_eq, bound]
  rw [if_neg hpolicy]

mutual

/-- A derivation with at most `levels` steps is found with one level more. -/
theorem Typing.typeAt_eq_ok {d : Definition} {path : String} {t : TypeExpr} {levels : Nat} :
    (δ : Typing r d path t) → δ.steps ≤ levels →
      ∃ rule, d.rule? path = some rule ∧
        r.typeAt (levels + 1) d path = .ok (t, rule.optionality.holds)
  | .named declared explicit, _ => by
      refine ⟨_, declared, ?_⟩
      simp only [Resolver.typeAt, declared, Resolver.ruleType, explicit]
      rfl
  | .single declared implicit arms, h => by
      have harms := arms.mapM_eq_ok h
      refine ⟨_, declared, ?_⟩
      simp only [Resolver.typeAt, declared, Resolver.ruleType, implicit, harms]
      rfl
  | .several declared implicit many typed, h => by
      have harms := typed.mapM_eq_ok h
      refine ⟨_, declared, ?_⟩
      simp only [Resolver.typeAt, declared, Resolver.ruleType, implicit, harms]
      exact congrArg (fun t => Except.ok (t, _)) (TypeExpr.oneOf_of_two_le many)

@[inherit_doc Typing.typeAt_eq_ok]
theorem ArmTypings.mapM_eq_ok {d : Definition} {path : String} {candidates : List Candidate}
    {arms : List TypeExpr} {levels : Nat} :
    (δ : ArmTypings r d path candidates arms) → δ.steps ≤ levels →
      candidates.mapM (r.candidateType (r.typeAt levels) d path) = .ok arms
  | .nil, _ => rfl
  | .cons first others, h => by
      obtain ⟨hfirst, hothers⟩ := Nat.max_le.1 h
      exact Outcome.mapM_cons_eq_ok.2
        ⟨_, _, first.candidateType_eq_ok hfirst, others.mapM_eq_ok hothers, rfl⟩

@[inherit_doc Typing.typeAt_eq_ok]
theorem CandidateTyping.candidateType_eq_ok {d : Definition} {path : String}
    {candidate : Candidate} {t : TypeExpr} {levels : Nat} :
    (δ : CandidateTyping r d path candidate t) → δ.steps ≤ levels →
      r.candidateType (r.typeAt levels) d path candidate = .ok t
  | .scalar _, _ => rfl
  | .array element, h => by
      match levels, h with
      | levels + 1, h =>
        obtain ⟨_, _, helement⟩ := element.typeAt_eq_ok (Nat.le_of_succ_le_succ h)
        exact Outcome.map_eq_ok.2 ⟨_, helement, rfl⟩
  | .object inhabited typed, h => by
      have hfields := typed.mapM_eq_ok h
      exact Outcome.map_eq_ok.2 ⟨_, hfields, TypeExpr.ofFields_of_ne_nil inhabited⟩
  | .opaqueObject childless, _ => by
      simp only [Resolver.candidateType, Resolver.fieldsBelow_eq, childless]
      rfl
  | .reference bound allowed, _ => Resolver.instanceType_of_namesOf_eq_cons bound allowed
  | .inline unbound held inhabited typed, h => by
      have hfields := typed.mapM_eq_ok h
      simp only [Resolver.candidateType, Resolver.instanceType, Registry.reference?_eq, unbound,
        held]
      exact Outcome.map_eq_ok.2 ⟨_, hfields, TypeExpr.ofFields_of_ne_nil inhabited⟩
  | .opaqueInline unbound held childless, _ => by
      simp only [Resolver.candidateType, Resolver.instanceType, Registry.reference?_eq, unbound,
        held, Resolver.fieldsBelow_eq, childless]
      rfl
  | .values unbound held, _ => by
      simp only [Resolver.candidateType, Resolver.instanceType, Registry.reference?_eq, unbound,
        held]
      exact literalsType_eq_ok.2 ⟨_, rfl, rfl⟩

@[inherit_doc Typing.typeAt_eq_ok]
theorem FieldTypings.mapM_eq_ok {d : Definition} {parent : String} {keys : List String}
    {fields : List (Field TypeExpr)} {levels : Nat} :
    (δ : FieldTypings r d parent keys fields) → δ.steps ≤ levels →
      keys.mapM (Resolver.fieldAt (r.typeAt levels) d parent) = .ok fields
  | .nil, _ => rfl
  | .cons declared typed others, h => by
      obtain ⟨htyped, hothers⟩ := Nat.max_le.1 h
      match levels, htyped, hothers with
      | levels + 1, htyped, hothers =>
        obtain ⟨_, hrule, hat⟩ := typed.typeAt_eq_ok (Nat.le_of_succ_le_succ htyped)
        cases declared.symm.trans hrule
        exact Outcome.mapM_cons_eq_ok.2
          ⟨_, _, Resolver.fieldAt_eq_ok.2 ⟨hat, rfl⟩, others.mapM_eq_ok hothers, rfl⟩

end

/-! ## The bounded resolver is the judgement, cut at its limit -/

theorem Resolver.exists_typing_of_top {r : Resolver} {path : String} {d : Definition} {t : TypeExpr}
    {optional : Bool} (h : r.top d path = .ok (t, optional)) :
    ∃ δ : Typing r d path t, δ.steps ≤ r.options.depthLimit := by
  obtain ⟨_, _, _, δ, hδ⟩ := Resolver.typeAt_soundBelow _ _ _ _ _ h
  exact ⟨δ, Nat.le_of_lt_succ hδ⟩

theorem Resolver.exists_typing_of_resolve {r : Resolver} {path : String} {d : Definition} {t : TypeExpr}
    (h : r.resolve path d = .ok t) : ∃ δ : Typing r d path t, δ.steps ≤ r.options.depthLimit := by
  obtain ⟨⟨type, optional⟩, htop, rfl⟩ := Outcome.map_eq_ok.1 h
  exact Resolver.exists_typing_of_top htop

/-- **Resolution finds a type exactly when the rules derive it without going down too far:** no branch of
    the derivation takes more steps than the depth limit. -/
theorem Resolver.resolve_eq_ok_iff_typing (r : Resolver) (path : String) (d : Definition)
    (t : TypeExpr) :
    r.resolve path d = .ok t ↔ ∃ δ : Typing r d path t, δ.steps ≤ r.options.depthLimit := by
  constructor
  · exact Resolver.exists_typing_of_resolve
  · rintro ⟨δ, hδ⟩
    obtain ⟨_, _, htop⟩ := δ.typeAt_eq_ok hδ
    unfold Resolver.resolve Resolver.top
    exact Outcome.map_eq_ok.2 ⟨_, htop, rfl⟩

/-! ## Rules without attributes -/

/-- A rule that accepts any of these types and carries no attributes. -/
def Resolver.bareRuleOf (first : Candidate) (others : List Candidate) : Rule where
  candidates := first :: others
  candidates_ne_nil := List.cons_ne_nil first others

end SchemaTyping
