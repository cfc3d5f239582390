import SchemaTyping.Generate
import SchemaTyping.Proofs.Registry.Constraints
import SchemaTyping.Proofs.Resolution.Typing

set_option autoImplicit false

/-! # Two resolvers side by side

Two resolvers are `Comparable` when they have the same instances but for constraints, write scalars alike, and
make the same of the names of an instance, unless the first refuses them for a reason that is set aside. They
then find the same types and are refused alike, as long as the first does not come to such a reason: the first
refusal decides, so it is the same in both runs up to there.

The proof follows the resolver, with one lemma for each of its functions that takes the agreement of the next
level as a hypothesis, and an induction on the levels. Where no reason is set aside the two declare the same
(`Resolver.Comparable.declare`). -/

namespace SchemaTyping.Resolver

open Outcome (AgreeUnless)

/-! ## Names before content -/

/-- What the names of an instance make of it: a reference, a refusal, or nothing if it has no name. -/
def referenceType (r : Resolver) (path : String) (id : InstanceId) :
    Except ResolveError (Option TypeExpr) :=
  match r.registry.reference? id with
  | some reference =>
    if reference.isAmbiguous ∧ r.options.references = .strict then
      .error (.ambiguous path reference.names)
    else .ok (some (.reference reference.name))
  | none => .ok none

/-- What the content of an instance makes of it. -/
def contentType (r : Resolver) (next : Level) (path : String) (id : InstanceId) :
    Except ResolveError TypeExpr :=
  match r.registry.instance? id with
  | some (.schema nested) => (r.fieldsBelow next nested "").map TypeExpr.ofFields
  | some (.values values) => literalsType path values
  | none => .error (.unclassified path (.missingInstance id))

theorem instanceType_eq (r : Resolver) (next : Level) (path : String) (id : InstanceId) :
    r.instanceType next path id = (do
      let reference ← r.referenceType path id
      reference.elim (r.contentType next path id) pure) := by
  unfold instanceType referenceType contentType
  cases r.registry.reference? id with
  | none => rfl
  | some reference =>
      dsimp only
      split <;> rfl

/-! ## One level -/

/-- What two resolvers have in common that only disagree where the first fails for one of these reasons. -/
structure Comparable (lost : ResolveError → Prop) (r s : Resolver) : Prop where
  wildcardSegment : s.options.wildcardSegment = r.options.wildcardSegment
  scalarNames : s.options.scalarNames = r.options.scalarNames
  instances : ∀ id,
    (s.registry.instance? id).map Instance.strip = (r.registry.instance? id).map Instance.strip
  references : ∀ path id, AgreeUnless lost (r.referenceType path id) (s.referenceType path id)

/-- Two levels find the same types in definitions that only differ in constraints, unless the first fails for
    one of these reasons. -/
def LevelsAgree (lost : ResolveError → Prop) (next next' : Level) : Prop :=
  ∀ d d' : Definition, d'.strip = d.strip → ∀ path, AgreeUnless lost (next d path) (next' d' path)

section

variable {lost : ResolveError → Prop} {r s : Resolver} {next next' : Level} {d d' : Definition}

theorem Comparable.fieldsBelow (h : Comparable lost r s) (hnext : LevelsAgree lost next next')
    (hd : d'.strip = d.strip) (parent : String) :
    AgreeUnless lost (r.fieldsBelow next d parent) (s.fieldsBelow next' d' parent) := by
  unfold Resolver.fieldsBelow
  rw [h.wildcardSegment, Definition.childKeys_of_strip hd]
  refine AgreeUnless.mapM fun key _ => ?_
  exact (hnext d d' hd _).bind fun _ => .refl _

theorem Comparable.contentType (h : Comparable lost r s) (hnext : LevelsAgree lost next next')
    (path : String) (id : InstanceId) :
    AgreeUnless lost (r.contentType next path id) (s.contentType next' path id) := by
  have hheld := h.instances id
  unfold Resolver.contentType
  cases hr : r.registry.instance? id with
  | none =>
      rw [hr, Option.map_none, Option.map_eq_none_iff] at hheld
      rw [hheld]
      exact .refl _
  | some i =>
      rw [hr, Option.map_some, Option.map_eq_some_iff] at hheld
      obtain ⟨j, hs, hj⟩ := hheld
      rw [hs]
      cases i with
      | values held =>
          obtain rfl := Instance.strip_eq_values.1 hj
          exact .refl _
      | schema nested =>
          obtain ⟨nested', rfl, hnested⟩ := Instance.strip_eq_schema.1 hj
          exact (h.fieldsBelow hnext hnested "").map _

theorem Comparable.instanceType (h : Comparable lost r s) (hnext : LevelsAgree lost next next')
    (path : String) (id : InstanceId) :
    AgreeUnless lost (r.instanceType next path id) (s.instanceType next' path id) := by
  rw [instanceType_eq, instanceType_eq]
  refine (h.references path id).bind fun reference => ?_
  cases reference with
  | none => exact h.contentType hnext path id
  | some type => exact .refl _

theorem Comparable.candidateType (h : Comparable lost r s) (hnext : LevelsAgree lost next next')
    (hd : d'.strip = d.strip) (path : String) (candidate : Candidate) :
    AgreeUnless lost (r.candidateType next d path candidate) (s.candidateType next' d' path candidate) := by
  cases candidate with
  | scalar kind =>
      simp only [Resolver.candidateType, h.scalarNames]
      exact .refl _
  | array =>
      simp only [Resolver.candidateType, h.wildcardSegment]
      exact (hnext d d' hd _).map _
  | object => exact (h.fieldsBelow hnext hd path).map _
  | nested id => exact h.instanceType hnext path id

theorem Comparable.ruleType (h : Comparable lost r s) (hnext : LevelsAgree lost next next')
    (hd : d'.strip = d.strip) (path : String) {rule rule' : Rule} (hrule : rule'.strip = rule.strip) :
    AgreeUnless lost (r.ruleType next d path rule) (s.ruleType next' d' path rule') := by
  obtain ⟨hcandidates, hname, -⟩ := Rule.eq_of_strip hrule
  simp only [Resolver.ruleType, hname, hcandidates]
  cases rule.explicitName with
  | some name => exact .refl _
  | none =>
      exact (AgreeUnless.mapM fun candidate _ => h.candidateType hnext hd path candidate).bind
        fun _ => .refl _

theorem Comparable.typeAt_succ (h : Comparable lost r s) {levels levels' : Nat}
    (hnext : LevelsAgree lost (r.typeAt levels) (s.typeAt levels')) :
    LevelsAgree lost (r.typeAt (levels + 1)) (s.typeAt (levels' + 1)) := by
  intro d d' hd path
  have hdeclared := Definition.rule?_of_strip hd path
  simp only [Resolver.typeAt]
  cases hrule : d.rule? path with
  | none =>
      rw [hrule, Option.map_none, Option.map_eq_none_iff] at hdeclared
      rw [hdeclared]
      exact .refl _
  | some rule =>
      rw [hrule, Option.map_some, Option.map_eq_some_iff] at hdeclared
      obtain ⟨rule', hrule', hstrip⟩ := hdeclared
      obtain ⟨-, -, hoptional⟩ := Rule.eq_of_strip hstrip
      simp only [hrule', hoptional]
      exact (h.ruleType hnext hd path hstrip).bind fun _ => .refl _

/-! ## All levels -/

/-- With more levels the same types are found, if the end of the levels is one of the reasons set aside. -/
theorem Comparable.typeAt_le (h : Comparable lost r s) (hcyclic : ∀ path limit, lost (.cyclic path limit))
    {levels levels' : Nat} (hle : levels ≤ levels') :
    LevelsAgree lost (r.typeAt levels) (s.typeAt levels') := by
  induction levels generalizing levels' with
  | zero => exact fun d d' _ path => Or.inl ⟨_, rfl, hcyclic path r.options.depthLimit⟩
  | succ levels ih =>
      obtain ⟨more, rfl⟩ : ∃ more, levels' = more + 1 := ⟨levels' - 1, by omega⟩
      exact h.typeAt_succ (ih (Nat.le_of_succ_le_succ hle))

theorem Comparable.typeAt (h : Comparable lost r s)
    (hlimit : s.options.depthLimit = r.options.depthLimit) (levels : Nat) :
    LevelsAgree lost (r.typeAt levels) (s.typeAt levels) := by
  induction levels with
  | zero =>
      intro d d' _ path
      simp only [Resolver.typeAt, hlimit]
      exact .refl _
  | succ levels ih => exact h.typeAt_succ ih

theorem Comparable.resolve (h : Comparable lost r s)
    (hlimit : s.options.depthLimit = r.options.depthLimit) (hd : d'.strip = d.strip) (path : String) :
    AgreeUnless lost (r.resolve path d) (s.resolve path d') := by
  simp only [Resolver.resolve, top, hlimit]
  exact (h.typeAt hlimit _ d d' hd path).map _

theorem Comparable.resolveField (h : Comparable lost r s)
    (hlimit : s.options.depthLimit = r.options.depthLimit) (hd : d'.strip = d.strip) (path : String) :
    AgreeUnless lost (r.resolveField path d) (s.resolveField path d') := by
  simp only [Resolver.resolveField, top, hlimit]
  exact (h.typeAt hlimit _ d d' hd _).bind fun _ => .refl _

/-! ## Declarations -/

/-- Where no reason is set aside the fields of a definition and their reports are the same. -/
theorem Comparable.keyFields (h : Comparable lost r s) (hlost : ∀ e, ¬lost e)
    (hlimit : s.options.depthLimit = r.options.depthLimit)
    (hpolicy : s.options.missingFields = r.options.missingFields) (hd : d'.strip = d.strip)
    (typeName : String) (keys : List String) :
    s.keyFields typeName d' keys = r.keyFields typeName d keys := by
  induction keys with
  | nil => rfl
  | cons key keys ih =>
      have hfield := (h.resolveField hlimit hd key).eq hlost
      simp only [Resolver.keyFields, hfield, hpolicy, ih]

theorem Comparable.declare (h : Comparable lost r s) (hlost : ∀ e, ¬lost e)
    (hlimit : s.options.depthLimit = r.options.depthLimit)
    (hpolicy : s.options.missingFields = r.options.missingFields) (name : String) (id : InstanceId) :
    s.declare name id = r.declare name id := by
  have hheld := h.instances id
  unfold Resolver.declare
  cases hr : r.registry.instance? id with
  | none =>
      rw [hr, Option.map_none, Option.map_eq_none_iff] at hheld
      rw [hheld]
  | some i =>
      rw [hr, Option.map_some, Option.map_eq_some_iff] at hheld
      obtain ⟨j, hs, hj⟩ := hheld
      rw [hs]
      cases i with
      | values held =>
          obtain rfl := Instance.strip_eq_values.1 hj
          rfl
      | schema d =>
          obtain ⟨d', rfl, hd⟩ := Instance.strip_eq_schema.1 hj
          dsimp only
          rw [h.wildcardSegment, Definition.childKeys_of_strip hd,
            h.keyFields hlost hlimit hpolicy hd]

end

end SchemaTyping.Resolver
