import SchemaTyping.Proofs.Registry.Keys
import SchemaTyping.Proofs.Resolution.Typing

set_option autoImplicit false

/-! # Nesting and its limit

The type of a field is made of the types of other fields: of its elements, of the fields below it, of the
fields of the anonymous definitions that its rule lists. `Resolver.Step` leads from a place to one of
those, without any bound, and in a registry whose anonymous definitions refer to each other in a circle it
goes on for ever. `Resolver.Chain` counts the steps.

Resolution ends nevertheless, since it counts them too (`Resolver.Counts`), and its limit is exact: it
refuses a field for its nesting only when a chain goes beyond the limit, and finds no type whenever one
does (`Resolver.nesting_limit_exact`). Both are inductions on the levels that are left; what they need of
one level is that a type at a place takes a type at each place one step away
(`Resolver.exists_of_step`) and that a place is refused with one of those, or for an instance that its rule
lists (`Resolver.refuses_or_exists_step`). -/

namespace SchemaTyping.Resolver

/-! ## Steps -/

/-- A path of a definition, which need not declare a rule there. -/
abbrev Place := Definition × String

/-- The type at the first place is made of the type at the second. An explicit name is made of nothing. -/
inductive Step (r : Resolver) : Place → Place → Prop where
  | element {d : Definition} {path : String} {rule : Rule} (declared : d.rule? path = some rule)
      (implicit : rule.explicitName = none) (listed : .array ∈ rule.candidates) :
      Step r (d, path) (d, Path.join path r.options.wildcardSegment)
  | field {d : Definition} {path key : String} {rule : Rule} (declared : d.rule? path = some rule)
      (implicit : rule.explicitName = none) (listed : .object ∈ rule.candidates)
      (below : key ∈ d.childKeys path r.options.wildcardSegment) :
      Step r (d, path) (d, Path.join path key)
  | inline {d nested : Definition} {path key : String} {rule : Rule} {id : InstanceId}
      (declared : d.rule? path = some rule) (implicit : rule.explicitName = none)
      (listed : .nested id ∈ rule.candidates) (unbound : r.registry.namesOf id = [])
      (held : r.registry.instance? id = some (.schema nested))
      (below : key ∈ nested.childKeys "" r.options.wildcardSegment) :
      Step r (d, path) (nested, key)

/-- So many steps lead from the first place to the second. -/
inductive Chain (r : Resolver) : Nat → Place → Place → Prop where
  | here (a : Place) : Chain r 0 a a
  | step {n : Nat} {a b c : Place} (first : r.Step a b) (others : Chain r n b c) :
      Chain r (n + 1) a c

variable {r : Resolver}

theorem Chain.append {m n : Nat} {a b c : Place} (h : r.Chain m a b) (h' : r.Chain n b c) :
    r.Chain (m + n) a c := by
  induction h with
  | here a => rwa [Nat.zero_add]
  | step first _ ih =>
      rw [Nat.succ_add]
      exact .step first (ih h')

/-- What every step keeps a chain keeps. -/
theorem Chain.keeps {P : Place → Prop} (hstep : ∀ {a b}, r.Step a b → P a → P b) {n : Nat} {a b : Place}
    (h : r.Chain n a b) (ha : P a) : P b := by
  induction h with
  | here a => exact ha
  | step first _ ih => exact ih (hstep first ha)

/-- A chain can be left off after any number of steps. -/
theorem Chain.take {m n : Nat} {a c : Place} (h : r.Chain n a c) (hm : m ≤ n) :
    ∃ b, r.Chain m a b := by
  induction h generalizing m with
  | here a =>
      obtain rfl := Nat.le_zero.1 hm
      exact ⟨a, .here a⟩
  | step first _ ih =>
      cases m with
      | zero => exact ⟨_, .here _⟩
      | succ m =>
          obtain ⟨b, hb⟩ := ih (Nat.le_of_succ_le_succ hm)
          exact ⟨b, .step first hb⟩

/-- A circle can be gone round any number of times. -/
theorem Chain.rounds {m : Nat} {a : Place} (h : r.Chain (m + 1) a a) (n : Nat) :
    ∃ k, n ≤ k ∧ r.Chain k a a := by
  induction n with
  | zero => exact ⟨0, Nat.le_refl 0, .here a⟩
  | succ n ih =>
      obtain ⟨k, hk, hchain⟩ := ih
      exact ⟨m + 1 + k, by omega, h.append hchain⟩

/-! ## One level -/

variable {next : Level} {d : Definition} {path : String} {rule : Rule}

/-- Fields have types only if each of them has. -/
theorem exists_of_fieldsBelow {parent : String} {t : TypeExpr}
    (h : (r.fieldsBelow next d parent).map TypeExpr.ofFields = .ok t) {key : String}
    (hkey : key ∈ d.childKeys parent r.options.wildcardSegment) :
    ∃ found, next d (Path.join parent key) = .ok found := by
  obtain ⟨fields, hfields, -⟩ := Outcome.map_eq_ok.1 h
  rw [fieldsBelow_eq] at hfields
  obtain ⟨field, hfield⟩ := Outcome.exists_of_mapM_eq_ok hfields key hkey
  exact ⟨_, (fieldAt_eq_ok.1 hfield).1⟩

/-- The refusal of fields is that of one of them. -/
theorem exists_of_fieldsBelow_eq_error {parent : String} {e : ResolveError}
    (h : (r.fieldsBelow next d parent).map TypeExpr.ofFields = .error e) :
    ∃ key ∈ d.childKeys parent r.options.wildcardSegment,
      next d (Path.join parent key) = .error e := by
  rw [Outcome.map_eq_error, fieldsBelow_eq] at h
  obtain ⟨key, hkey, hfield⟩ := Outcome.exists_of_mapM_eq_error h
  unfold fieldAt at hfield
  rcases Outcome.bind_eq_error.1 hfield with hnext | ⟨found, -, hpure⟩
  · exact ⟨key, hkey, hnext⟩
  · cases hpure

theorem instanceType_of_unbound {id : InstanceId} {nested : Definition}
    (unbound : r.registry.namesOf id = [])
    (held : r.registry.instance? id = some (.schema nested)) :
    r.instanceType next path id = (r.fieldsBelow next nested "").map TypeExpr.ofFields := by
  simp only [instanceType, Registry.reference?_eq, unbound, held]

/-- **A type takes a type at every place one step away.** -/
theorem exists_of_step {a b : Place} (hstep : r.Step a b) {rule : Rule}
    (hrule : a.1.rule? a.2 = some rule) {t : TypeExpr}
    (h : r.ruleType next a.1 a.2 rule = .ok t) : ∃ found, next b.1 b.2 = .ok found := by
  have hcandidates (himplicit : rule.explicitName = none) : ∀ candidate ∈ rule.candidates,
      ∃ arm, r.candidateType next a.1 a.2 candidate = .ok arm := by
    simp only [ruleType, himplicit] at h
    obtain ⟨arms, harms, -⟩ := Outcome.bind_eq_ok.1 h
    exact Outcome.exists_of_mapM_eq_ok harms
  cases hstep with
  | element declared implicit listed =>
      cases hrule.symm.trans declared
      obtain ⟨arm, harm⟩ := hcandidates implicit _ listed
      obtain ⟨found, hfound, -⟩ := Outcome.map_eq_ok.1 harm
      exact ⟨found, hfound⟩
  | field declared implicit listed below =>
      cases hrule.symm.trans declared
      obtain ⟨arm, harm⟩ := hcandidates implicit _ listed
      exact exists_of_fieldsBelow harm below
  | inline declared implicit listed unbound held below =>
      cases hrule.symm.trans declared
      obtain ⟨arm, harm⟩ := hcandidates implicit _ listed
      rw [candidateType, instanceType_of_unbound unbound held] at harm
      exact exists_of_fieldsBelow harm below

theorem literalsType_eq_error {values : List EnumValue} {e : ResolveError}
    (h : literalsType path values = .error e) :
    ∃ j, .structured j ∈ values ∧ e = .unclassified path (.structuredValue j) := by
  unfold literalsType at h
  obtain ⟨value, hmem, hvalue⟩ := Outcome.exists_of_mapM_eq_error (Outcome.bind_pure_eq_error.1 h)
  cases value with
  | literal l => cases hvalue
  | structured j =>
      cases hvalue
      exact ⟨j, hmem, rfl⟩

/-- What a rule is refused for at its own path: one of the instances that it lists. -/
inductive Refuses (r : Resolver) (path : String) (rule : Rule) : ResolveError → Prop where
  | ambiguous {id : InstanceId} {reference : Reference} (listed : .nested id ∈ rule.candidates)
      (found : r.registry.reference? id = some reference) (shared : reference.isAmbiguous)
      (strict : r.options.references = .strict) :
      Refuses r path rule (.ambiguous path reference.names)
  | structured {id : InstanceId} {values : List EnumValue} {j : Json}
      (listed : .nested id ∈ rule.candidates)
      (held : r.registry.instance? id = some (.values values)) (among : .structured j ∈ values) :
      Refuses r path rule (.unclassified path (.structuredValue j))
  | missing {id : InstanceId} (listed : .nested id ∈ rule.candidates)
      (absent : r.registry.instance? id = none) :
      Refuses r path rule (.unclassified path (.missingInstance id))

/-- **A rule is refused for an instance that it lists, or with a place one step away.** -/
theorem refuses_or_exists_step (hrule : d.rule? path = some rule) {e : ResolveError}
    (h : r.ruleType next d path rule = .error e) :
    r.Refuses path rule e ∨ ∃ b, r.Step (d, path) b ∧ next b.1 b.2 = .error e := by
  cases himplicit : rule.explicitName with
  | some name => simp [ruleType, himplicit] at h
  | none =>
      simp only [ruleType, himplicit] at h
      obtain ⟨candidate, listed, harm⟩ :=
        Outcome.exists_of_mapM_eq_error (Outcome.bind_pure_eq_error.1 h)
      cases candidate with
      | scalar kind => cases harm
      | array => exact Or.inr ⟨_, .element hrule himplicit listed, Outcome.map_eq_error.1 harm⟩
      | object =>
          obtain ⟨key, below, hnext⟩ := exists_of_fieldsBelow_eq_error harm
          exact Or.inr ⟨_, .field hrule himplicit listed below, hnext⟩
      | nested id =>
          cases unbound : r.registry.namesOf id with
          | cons name aliases =>
              have found := Registry.reference?_eq r.registry id
              rw [unbound] at found
              simp only [candidateType, instanceType, found] at harm
              split at harm
              · next hstrict =>
                  cases harm
                  exact Or.inl (.ambiguous listed found hstrict.1 hstrict.2)
              · cases harm
          | nil =>
              cases held : r.registry.instance? id with
              | none =>
                  simp only [candidateType, instanceType, Registry.reference?_eq, unbound, held] at harm
                  cases harm
                  exact Or.inl (.missing listed held)
              | some i =>
                  cases i with
                  | values values =>
                      simp only [candidateType, instanceType, Registry.reference?_eq, unbound,
                        held] at harm
                      obtain ⟨j, among, rfl⟩ := literalsType_eq_error harm
                      exact Or.inl (.structured listed held among)
                  | schema nested =>
                      rw [candidateType, instanceType_of_unbound unbound held] at harm
                      obtain ⟨key, below, hnext⟩ := exists_of_fieldsBelow_eq_error harm
                      exact Or.inr ⟨_, .inline hrule himplicit listed unbound held below, hnext⟩

/-- **A place is refused for its nesting only when a place one step away is.** -/
theorem exists_step_of_cyclic (hrule : d.rule? path = some rule) {path' : String} {limit : Nat}
    (h : r.ruleType next d path rule = .error (.cyclic path' limit)) :
    ∃ b, r.Step (d, path) b ∧ next b.1 b.2 = .error (.cyclic path' limit) :=
  (refuses_or_exists_step hrule h).resolve_left nofun

/-! ## Any number of levels -/

theorem typeAt_succ_eq_ok {levels : Nat} {found : TypeExpr × Bool}
    (h : r.typeAt (levels + 1) d path = .ok found) :
    ∃ rule t, d.rule? path = some rule ∧ r.ruleType (r.typeAt levels) d path rule = .ok t := by
  cases hrule : d.rule? path with
  | none => simp [typeAt, hrule] at h
  | some rule =>
      simp only [typeAt, hrule] at h
      obtain ⟨t, ht, -⟩ := Outcome.bind_eq_ok.1 h
      exact ⟨rule, t, rfl, ht⟩

/-- A type is found with more levels than the longest chain has steps. -/
theorem lt_of_chain_of_typeAt {levels n : Nat} {a b : Place} {found : TypeExpr × Bool}
    (h : r.typeAt levels a.1 a.2 = .ok found) (hchain : r.Chain n a b) : n < levels := by
  induction levels generalizing n a found with
  | zero => simp [typeAt] at h
  | succ levels ih =>
      cases hchain with
      | here => exact Nat.succ_pos levels
      | step first others =>
          obtain ⟨rule, t, hrule, ht⟩ := typeAt_succ_eq_ok h
          obtain ⟨found', hfound⟩ := exists_of_step first hrule ht
          exact Nat.succ_lt_succ (ih hfound others)

/-- What is refused for its nesting starts a chain with as many steps as there are levels; it ends at the
    path that the refusal names. -/
theorem exists_chain_of_typeAt {levels : Nat} {path' : String} {limit : Nat}
    (h : r.typeAt levels d path = .error (.cyclic path' limit)) :
    limit = r.options.depthLimit ∧ ∃ d', r.Chain levels (d, path) (d', path') := by
  induction levels generalizing d path with
  | zero =>
      cases h
      exact ⟨rfl, d, .here _⟩
  | succ levels ih =>
      cases hrule : d.rule? path with
      | none => simp [typeAt, hrule] at h
      | some rule =>
          simp only [typeAt, hrule] at h
          obtain ⟨b, hstep, hb⟩ :=
            exists_step_of_cyclic hrule (Outcome.bind_pure_eq_error.1 h)
          obtain ⟨hlimit, d', hchain⟩ := ih hb
          exact ⟨hlimit, d', .step hstep hchain⟩

/-- What a place is refused for by itself: it is not declared, or its rule is refused. -/
def Blames (r : Resolver) (a : Place) (e : ResolveError) : Prop :=
  (a.1.rule? a.2 = none ∧ e = .undeclared a.2) ∨ ∃ rule, a.1.rule? a.2 = some rule ∧ r.Refuses a.2 rule e

/-- **A refusal is for the nesting, or for a place that a chain leads to.** -/
theorem origin_of_typeAt {levels : Nat} {a : Place} {e : ResolveError}
    (h : r.typeAt levels a.1 a.2 = .error e) :
    (∃ path' limit, e = .cyclic path' limit) ∨ ∃ n b, r.Chain n a b ∧ r.Blames b e := by
  induction levels generalizing a with
  | zero =>
      cases h
      exact Or.inl ⟨_, _, rfl⟩
  | succ levels ih =>
      cases hrule : a.1.rule? a.2 with
      | none =>
          simp only [typeAt, hrule] at h
          cases h
          exact Or.inr ⟨0, a, .here a, Or.inl ⟨hrule, rfl⟩⟩
      | some rule =>
          simp only [typeAt, hrule] at h
          rcases refuses_or_exists_step hrule (Outcome.bind_pure_eq_error.1 h) with hrefuses | ⟨b, hstep, hb⟩
          · exact Or.inr ⟨0, a, .here a, Or.inr ⟨rule, hrule, hrefuses⟩⟩
          rcases ih hb with hcyclic | ⟨n, c, hchain, hblames⟩
          · exact Or.inl hcyclic
          · exact Or.inr ⟨n + 1, c, .step hstep hchain, hblames⟩

/-! ## The count that ends resolution -/

/-- Looking up the first place, which so many steps led to, is part of looking up the second. Nothing is
    looked up below a place that is beyond the limit. -/
def Deeper (r : Resolver) (inner outer : Nat × Place) : Prop :=
  outer.1 ≤ r.options.depthLimit ∧ inner.1 = outer.1 + 1 ∧ r.Step outer.2 inner.2

/-- Whatever the steps are like, look-ups are inside each other only so often. -/
theorem deeper_wellFounded (r : Resolver) : WellFounded r.Deeper := by
  refine Subrelation.wf ?_ (measure fun look : Nat × Place => r.options.depthLimit + 1 - look.1).wf
  rintro inner outer ⟨hlimit, hdepth, -⟩
  show r.options.depthLimit + 1 - inner.1 < r.options.depthLimit + 1 - outer.1
  omega

/-- The type at a place that `depth` steps led to, when `deeper` gives the types one step further. -/
def look (r : Resolver) (depth : Nat) (deeper : Level) : Level := fun d path =>
  if r.options.depthLimit < depth then .error (.cyclic path r.options.depthLimit)
  else
    match d.rule? path with
    | none => .error (.undeclared path)
    | some rule => do
      let type ← r.ruleType deeper d path rule
      return (type, rule.optionality.holds)

/-- A way to look up types that counts the steps upwards, with no levels that are left. -/
def Counts (r : Resolver) (types : Nat → Level) : Prop :=
  ∀ depth, types depth = r.look depth (types (depth + 1))

theorem fieldsBelow_congr {next' : Level} {parent : String}
    (h : ∀ key ∈ d.childKeys parent r.options.wildcardSegment,
      next d (Path.join parent key) = next' d (Path.join parent key)) :
    r.fieldsBelow next d parent = r.fieldsBelow next' d parent := by
  rw [fieldsBelow_eq, fieldsBelow_eq]
  refine Outcome.mapM_congr fun key hkey => ?_
  simp only [fieldAt, h key hkey]

/-- The type that a rule gives depends on the places one step away only. -/
theorem ruleType_congr {next' : Level} (hrule : d.rule? path = some rule)
    (h : ∀ b, r.Step (d, path) b → next b.1 b.2 = next' b.1 b.2) :
    r.ruleType next d path rule = r.ruleType next' d path rule := by
  cases himplicit : rule.explicitName with
  | some name => simp only [ruleType, himplicit]
  | none =>
      have hcandidates : ∀ candidate ∈ rule.candidates,
          r.candidateType next d path candidate = r.candidateType next' d path candidate := by
        intro candidate listed
        cases candidate with
        | scalar kind => rfl
        | array => simp only [candidateType, h _ (.element hrule himplicit listed)]
        | object =>
            rw [candidateType, candidateType,
              fieldsBelow_congr fun key below => h _ (.field hrule himplicit listed below)]
        | nested id =>
            simp only [candidateType, instanceType, Registry.reference?_eq]
            cases unbound : r.registry.namesOf id with
            | cons name aliases => rfl
            | nil =>
                cases held : r.registry.instance? id with
                | none => rfl
                | some i =>
                    cases i with
                    | values values => rfl
                    | schema nested =>
                        simp only
                        rw [fieldsBelow_congr fun key below =>
                          h _ (.inline hrule himplicit listed unbound held below)]
      simp only [ruleType, himplicit, Outcome.mapM_congr hcandidates]

/-- The count determines the types: a look-up asks only for others that are inside it. -/
theorem Counts.unique {types types' : Nat → Level} (h : r.Counts types) (h' : r.Counts types') :
    ∀ start : Nat × Place, types start.1 start.2.1 start.2.2 = types' start.1 start.2.1 start.2.2 := by
  intro start
  induction start using r.deeper_wellFounded.induction with
  | _ outer ih =>
    obtain ⟨depth, d, path⟩ := outer
    rw [h depth, h' depth]
    simp only [look]
    split
    · rfl
    · next hlimit =>
        cases hrule : d.rule? path with
        | none => rfl
        | some rule =>
            have hsame : ∀ b, r.Step (d, path) b →
                types (depth + 1) b.1 b.2 = types' (depth + 1) b.1 b.2 := fun b hstep =>
              ih (depth + 1, b) ⟨Nat.not_lt.1 hlimit, rfl, hstep⟩
            simp only [ruleType_congr hrule hsame]

/-- Levels that are left are steps that are counted, seen from the other end. -/
theorem counts_typeAt (r : Resolver) :
    r.Counts fun depth => r.typeAt (r.options.depthLimit + 1 - depth) := by
  intro depth
  funext d path
  dsimp only [look]
  split
  · next hbeyond =>
      rw [Nat.sub_eq_zero_of_le hbeyond]
      rfl
  · next hwithin =>
      obtain ⟨levels, hlevels⟩ : ∃ levels, r.options.depthLimit + 1 - depth = levels + 1 :=
        ⟨r.options.depthLimit - depth, by omega⟩
      have hnext : r.options.depthLimit + 1 - (depth + 1) = levels := by omega
      rw [hlevels, hnext]
      rfl

/-! ## The limit -/

/-- **Resolution always ends, and its nesting limit is exact.** Look-ups that count the steps are inside
    each other only so often, so the count determines them all, and resolution is the one that has counted
    none. A field is refused for its nesting only when a chain with one step more than the limit starts
    there, which ends at the path that is named; and whenever such a chain starts there, all the more if a
    chain leads into a circle, no type is found. -/
theorem nesting_limit_exact (r : Resolver) (d : Definition) (path : String) :
    (WellFounded r.Deeper ∧ (∃ types, r.Counts types) ∧
        ∀ types, r.Counts types → r.resolve path d = (types 0 d path).map (·.1)) ∧
      (∀ path' limit, r.resolve path d = .error (.cyclic path' limit) →
        limit = r.options.depthLimit ∧
          ∃ d', r.Chain (r.options.depthLimit + 1) (d, path) (d', path')) ∧
      (∀ b, r.Chain (r.options.depthLimit + 1) (d, path) b → ∀ t, r.resolve path d ≠ .ok t) ∧
      (∀ m n b, r.Chain m (d, path) b → r.Chain (n + 1) b b → ∀ t, r.resolve path d ≠ .ok t) := by
  have hdeep : ∀ b, r.Chain (r.options.depthLimit + 1) (d, path) b →
      ∀ t, r.resolve path d ≠ .ok t := by
    intro b hchain t h
    obtain ⟨found, hfound, -⟩ := Outcome.map_eq_ok.1 h
    exact Nat.lt_irrefl _ (lt_of_chain_of_typeAt (a := (d, path)) hfound hchain)
  refine ⟨⟨r.deeper_wellFounded, ⟨_, r.counts_typeAt⟩, ?_⟩, ?_, hdeep, ?_⟩
  · intro types htypes
    exact congrArg (·.map (·.1)) (r.counts_typeAt.unique htypes (0, d, path))
  · intro path' limit h
    exact exists_chain_of_typeAt (Outcome.map_eq_error.1 h)
  · intro m n b hchain hcircle
    -- going round often enough makes the chain as long as it has to be
    obtain ⟨k, hk, hround⟩ := hcircle.rounds (r.options.depthLimit + 1)
    obtain ⟨c, hc⟩ := (hchain.append hround).take (m := r.options.depthLimit + 1) (by omega)
    exact hdeep c hc

end SchemaTyping.Resolver
