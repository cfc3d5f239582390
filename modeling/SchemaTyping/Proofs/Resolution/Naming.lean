import SchemaTyping.Proofs.Registry.Closed
import SchemaTyping.Proofs.Resolution.Limit
import SchemaTyping.Proofs.Resolution.Substitution

set_option autoImplicit false

/-! # Giving a name to an anonymous definition

An anonymous definition is written out wherever it is used. Once it has a name, every use is a reference to
that name, and nothing else changes: the types before are those after with the one type that was written
out (`Resolver.inlineType`) in the place of the references, and that type is what is declared under the
name (`Resolver.resolve_bind_eq_ok`).

The proof follows the resolver, level by level: `Resolver.Unfolds` relates two levels, and each function of
the resolver has one lemma that carries the relation through it. The same definition may be written out at
several depths; since a type that is found with some levels is found with more, they are all the type that
is found with all levels. -/

namespace SchemaTyping

/-! ## Names -/

/-- The explicit names of the rules of a definition. -/
def Definition.explicitNames (d : Definition) : List String :=
  d.rules.filterMap fun entry => entry.2.explicitName

/-- The explicit names of the rules of an instance. -/
def Instance.explicitNames : Instance → List String
  | .schema d => d.explicitNames
  | .values _ => []

theorem Definition.mem_explicitNames {d : Definition} {path name : String} {rule : Rule}
    (hrule : d.rule? path = some rule) (hname : rule.explicitName = some name) :
    name ∈ d.explicitNames :=
  List.mem_filterMap.2 ⟨_, Table.mem_of_get?_eq_some hrule, hname⟩

namespace Registry

/-- The explicit names of all rules. -/
def explicitNames (r : Registry) : List String := r.instances.flatMap Instance.explicitNames

theorem mem_explicitNames {r : Registry} {id : InstanceId} {d : Definition} {name : String}
    (held : r.instance? id = some (.schema d)) (h : name ∈ d.explicitNames) :
    name ∈ r.explicitNames := List.mem_flatMap.2 ⟨_, List.mem_of_getElem? held, h⟩

/-- An anonymous definition of the registry, and a name that is in use nowhere. -/
structure Nameable (r : Registry) (id : InstanceId) (nested : Definition) (name : String) :
    Prop where
  held : r.instance? id = some (.schema nested)
  unbound : r.namesOf id = []
  free : name ∉ r.entries.names
  unused : name ∉ r.explicitNames

end Registry

namespace Resolver

/-! ## The type that is written out -/

/-- The type of a definition that is written out, with all levels left for its fields. -/
def inlineType (r : Resolver) (nested : Definition) : Except ResolveError TypeExpr :=
  (r.fieldsBelow r.top nested "").map TypeExpr.ofFields

/-! ## One level -/

/-- The first type is the second with `u` for every reference to `name`, and such a reference is there
    only if `u` is the type that `nested` is written out as. -/
structure UnfoldsTo (r : Resolver) (nested : Definition) (name : String) (u t' t : TypeExpr) :
    Prop where
  replaced : t'.replace name u = t
  written : name ∈ t'.references → r.inlineType nested = .ok u

/-- The second level finds a type whenever the first does, and it unfolds to that of the first. -/
def Unfolds (r : Resolver) (nested : Definition) (name : String) (u : TypeExpr)
    (next next' : Level) : Prop :=
  ∀ (d : Definition) (path : String) (t : TypeExpr) (optional : Bool), name ∉ d.explicitNames →
    next d path = .ok (t, optional) →
      ∃ t', next' d path = .ok (t', optional) ∧ r.UnfoldsTo nested name u t' t

section

variable {r r' : Resolver} {name : String} {nested : Definition} {u : TypeExpr}
variable {next next' : Level}

/-- A type without references to `name` unfolds to itself. -/
theorem UnfoldsTo.of_not_mem {t : TypeExpr} (h : name ∉ t.references) :
    r.UnfoldsTo nested name u t t :=
  ⟨TypeExpr.replace_of_not_mem h, fun hname => absurd hname h⟩

theorem Unfolds.fieldsBelow (h : r.Unfolds nested name u next next') (ho : r'.options = r.options)
    {d : Definition} (hd : name ∉ d.explicitNames) {parent : String}
    {fields : List (Field TypeExpr)} (hfields : r.fieldsBelow next d parent = .ok fields) :
    ∃ fields', r'.fieldsBelow next' d parent = .ok fields' ∧
      TypeExpr.replaceFields fields' name u = fields ∧
      (name ∈ TypeExpr.fieldsReferences fields' → r.inlineType nested = .ok u) := by
  rw [fieldsBelow_eq] at hfields
  rw [fieldsBelow_eq, ho]
  generalize d.childKeys parent r.options.wildcardSegment = keys at hfields ⊢
  induction keys generalizing fields with
  | nil =>
      obtain rfl := Outcome.mapM_nil_eq_ok.1 hfields
      exact ⟨[], rfl, rfl, fun h => absurd h List.not_mem_nil⟩
  | cons key keys ih =>
      obtain ⟨⟨key', t, optional⟩, others, hfield, hothers, rfl⟩ := Outcome.mapM_cons_eq_ok.1 hfields
      obtain ⟨hat, rfl⟩ := fieldAt_eq_ok.1 hfield
      obtain ⟨t', hat', hunfolds⟩ := h d _ _ _ hd hat
      obtain ⟨others', hothers', hreplaced, hwritten⟩ := ih hothers
      refine ⟨⟨key', t', optional⟩ :: others',
        Outcome.mapM_cons_eq_ok.2
          ⟨⟨key', t', optional⟩, others', fieldAt_eq_ok.2 ⟨hat', rfl⟩, hothers', rfl⟩, ?_, ?_⟩
      · rw [TypeExpr.replaceFields, hunfolds.replaced, hreplaced]
      · intro hname
        rcases List.mem_append.1 hname with hfirst | hrest
        · exact hunfolds.written hfirst
        · exact hwritten hrest

theorem Unfolds.ofFields (h : r.Unfolds nested name u next next') (ho : r'.options = r.options)
    {d : Definition} (hd : name ∉ d.explicitNames) {parent : String} {t : TypeExpr}
    (ht : (r.fieldsBelow next d parent).map TypeExpr.ofFields = .ok t) :
    ∃ t', (r'.fieldsBelow next' d parent).map TypeExpr.ofFields = .ok t' ∧
      r.UnfoldsTo nested name u t' t := by
  obtain ⟨fields, hfields, rfl⟩ := Outcome.map_eq_ok.1 ht
  obtain ⟨fields', hfields', rfl, hwritten⟩ := h.fieldsBelow ho hd hfields
  refine ⟨_, Outcome.map_eq_ok.2 ⟨fields', hfields', rfl⟩, TypeExpr.replace_ofFields fields', ?_⟩
  exact fun hname => hwritten (TypeExpr.mem_references_ofFields.1 hname)

end

/-! ## Before and after -/

section

variable {M : Registry} {o : Options} {name : String} {id : InstanceId} {nested : Definition}
variable {u : TypeExpr} {next next' : Level} {levels : Nat} {d : Definition} {path : String}

/-- An instance is a reference after, if it has the new name now, and as before otherwise. -/
theorem Unfolds.instanceType (hM : M.Nameable id nested name)
    (hu : ∀ t, inlineType ⟨M, o⟩ nested = .ok t → t = u) (hle : levels ≤ o.depthLimit + 1)
    (h : Unfolds ⟨M, o⟩ nested name u (typeAt ⟨M, o⟩ levels) next') {other : InstanceId}
    {t : TypeExpr} (ht : instanceType ⟨M, o⟩ (typeAt ⟨M, o⟩ levels) path other = .ok t) :
    ∃ t', instanceType ⟨M.named name id, o⟩ next' path other = .ok t' ∧
      UnfoldsTo ⟨M, o⟩ nested name u t' t := by
  by_cases hother : id = other
  · subst hother
    simp only [Resolver.instanceType, Registry.reference?_eq, hM.unbound, hM.held] at ht
    obtain ⟨fields, hfields, rfl⟩ := Outcome.map_eq_ok.1 ht
    have hinline : inlineType ⟨M, o⟩ nested = .ok (TypeExpr.ofFields fields) :=
      Outcome.map_eq_ok.2 ⟨fields, fieldsBelow_mono hle hfields, rfl⟩
    obtain rfl := hu _ hinline
    have hnames : (M.named name id).namesOf id = [name] := by
      rw [Registry.namesOf_named, if_pos rfl, hM.unbound]
      rfl
    refine ⟨.reference name, instanceType_of_namesOf_eq_cons hnames (Or.inl rfl), ?_, ?_⟩
    · rw [TypeExpr.replace, if_pos rfl]
    · exact fun _ => hinline
  · have hnames : (M.named name id).namesOf other = M.namesOf other := by
      rw [Registry.namesOf_named, if_neg hother]
    cases hbound : M.namesOf other with
    | cons first aliases =>
        have hfirst : first ≠ name := by
          rintro rfl
          have hmem : first ∈ M.namesOf other := by simp [hbound]
          exact hM.free (Registry.mem_names_of_mem_namesOf hmem)
        simp only [Resolver.instanceType, Registry.reference?_eq, hnames, hbound] at ht ⊢
        refine ⟨t, ht, UnfoldsTo.of_not_mem ?_⟩
        split at ht
        · cases ht
        · cases ht
          simpa [TypeExpr.references] using hfirst.symm
    | nil =>
        have hsame : (M.named name id).instance? other = M.instance? other := rfl
        simp only [Resolver.instanceType, Registry.reference?_eq, hnames, hbound, hsame] at ht ⊢
        cases hheld : M.instance? other with
        | none => simp [hheld] at ht
        | some held =>
            simp only [hheld] at ht ⊢
            cases held with
            | schema inner =>
                have hinner : name ∉ inner.explicitNames := fun hname =>
                  hM.unused (Registry.mem_explicitNames hheld hname)
                exact h.ofFields rfl hinner ht
            | values values =>
                obtain ⟨literals, -, rfl⟩ := literalsType_eq_ok.1 ht
                exact ⟨_, ht, UnfoldsTo.of_not_mem (by simp [TypeExpr.references])⟩

theorem Unfolds.candidateType (hM : M.Nameable id nested name)
    (hu : ∀ t, inlineType ⟨M, o⟩ nested = .ok t → t = u) (hle : levels ≤ o.depthLimit + 1)
    (h : Unfolds ⟨M, o⟩ nested name u (typeAt ⟨M, o⟩ levels) next') (hd : name ∉ d.explicitNames)
    {candidate : Candidate} {t : TypeExpr}
    (ht : candidateType ⟨M, o⟩ (typeAt ⟨M, o⟩ levels) d path candidate = .ok t) :
    ∃ t', candidateType ⟨M.named name id, o⟩ next' d path candidate = .ok t' ∧
      UnfoldsTo ⟨M, o⟩ nested name u t' t := by
  cases candidate with
  | scalar kind =>
      cases ht
      exact ⟨_, rfl, UnfoldsTo.of_not_mem (by simp [TypeExpr.references])⟩
  | array =>
      obtain ⟨⟨item, optional⟩, hitem, rfl⟩ := Outcome.map_eq_ok.1 ht
      obtain ⟨item', hitem', hunfolds⟩ := h _ _ _ _ hd hitem
      refine ⟨.array item', Outcome.map_eq_ok.2 ⟨_, hitem', rfl⟩, ?_, hunfolds.written⟩
      rw [TypeExpr.replace, hunfolds.replaced]
  | object => exact h.ofFields rfl hd ht
  | nested other => exact h.instanceType hM hu hle ht

theorem Unfolds.arms (hM : M.Nameable id nested name)
    (hu : ∀ t, inlineType ⟨M, o⟩ nested = .ok t → t = u) (hle : levels ≤ o.depthLimit + 1)
    (h : Unfolds ⟨M, o⟩ nested name u (typeAt ⟨M, o⟩ levels) next') (hd : name ∉ d.explicitNames)
    {candidates : List Candidate} {arms : List TypeExpr}
    (harms : candidates.mapM (Resolver.candidateType ⟨M, o⟩ (typeAt ⟨M, o⟩ levels) d path) = .ok arms) :
    ∃ arms', candidates.mapM (Resolver.candidateType ⟨M.named name id, o⟩ next' d path) = .ok arms' ∧
      TypeExpr.replaceArms arms' name u = arms ∧
      (name ∈ TypeExpr.armsReferences arms' → inlineType ⟨M, o⟩ nested = .ok u) := by
  induction candidates generalizing arms with
  | nil =>
      obtain rfl := Outcome.mapM_nil_eq_ok.1 harms
      exact ⟨[], rfl, rfl, fun hname => absurd hname List.not_mem_nil⟩
  | cons candidate candidates ih =>
      obtain ⟨arm, others, harm, hothers, rfl⟩ := Outcome.mapM_cons_eq_ok.1 harms
      obtain ⟨arm', harm', hunfolds⟩ := h.candidateType hM hu hle hd harm
      obtain ⟨others', hothers', hreplaced, hwritten⟩ := ih hothers
      refine ⟨arm' :: others', Outcome.mapM_cons_eq_ok.2 ⟨_, _, harm', hothers', rfl⟩, ?_, ?_⟩
      · rw [TypeExpr.replaceArms, hunfolds.replaced, hreplaced]
      · intro hname
        rcases List.mem_append.1 hname with hfirst | hrest
        · exact hunfolds.written hfirst
        · exact hwritten hrest

theorem Unfolds.ruleType (hM : M.Nameable id nested name)
    (hu : ∀ t, inlineType ⟨M, o⟩ nested = .ok t → t = u) (hle : levels ≤ o.depthLimit + 1)
    (h : Unfolds ⟨M, o⟩ nested name u (typeAt ⟨M, o⟩ levels) next') (hd : name ∉ d.explicitNames)
    {rule : Rule} (hrule : d.rule? path = some rule) {t : TypeExpr}
    (ht : ruleType ⟨M, o⟩ (typeAt ⟨M, o⟩ levels) d path rule = .ok t) :
    ∃ t', ruleType ⟨M.named name id, o⟩ next' d path rule = .ok t' ∧
      UnfoldsTo ⟨M, o⟩ nested name u t' t := by
  unfold Resolver.ruleType at ht ⊢
  cases hname : rule.explicitName with
  | some explicit =>
      have hne : name ≠ explicit := by
        rintro rfl
        exact hd (Definition.mem_explicitNames hrule hname)
      simp only [hname] at ht
      cases ht
      exact ⟨_, rfl, UnfoldsTo.of_not_mem (by simpa [TypeExpr.references] using hne)⟩
  | none =>
      simp only [hname] at ht
      obtain ⟨arms, harms, ht⟩ := Outcome.bind_eq_ok.1 ht
      cases ht
      obtain ⟨arms', harms', rfl, hwritten⟩ := h.arms hM hu hle hd harms
      refine ⟨.oneOf arms', Outcome.bind_eq_ok.2 ⟨arms', harms', rfl⟩, TypeExpr.replace_oneOf arms', ?_⟩
      exact fun hmem => hwritten (TypeExpr.mem_references_oneOf.1 hmem)

/-- **Every level after unfolds to the same level before.** -/
theorem typeAt_unfolds (hM : M.Nameable id nested name)
    (hu : ∀ t, inlineType ⟨M, o⟩ nested = .ok t → t = u) (hle : levels ≤ o.depthLimit + 1) :
    Unfolds ⟨M, o⟩ nested name u (typeAt ⟨M, o⟩ levels) (typeAt ⟨M.named name id, o⟩ levels) := by
  induction levels with
  | zero =>
      intro d path t optional _ h
      cases h
  | succ levels ih =>
      intro d path t optional hd h
      unfold Resolver.typeAt at h ⊢
      cases hrule : d.rule? path with
      | none => simp [hrule] at h
      | some rule =>
          simp only [hrule] at h ⊢
          obtain ⟨t, ht, h⟩ := Outcome.bind_eq_ok.1 h
          cases h
          obtain ⟨t', ht', hunfolds⟩ := (ih (Nat.le_of_succ_le hle)).ruleType hM hu
            (Nat.le_of_succ_le hle) hd hrule ht
          exact ⟨t', Outcome.bind_eq_ok.2 ⟨t', ht', rfl⟩, hunfolds⟩

end

/-! ## With the name -/

/-- **Naming an anonymous definition only replaces what is written out by a reference.** With the name, the
    type of every field that had one is found too, and it is the type before with references to the name in
    the place of one type `u`. Where there is such a reference, `u` is the type the definition is written
    out as, and the name is declared as the object with the fields of `u`. -/
theorem resolve_bind_eq_ok {M : Registry} {id : InstanceId} {nested : Definition} {name : String}
    (hM : M.Nameable id nested name) :
    ∃ M', M.bind name id = .ok M' ∧
      ∀ o : Options, ∃ u : TypeExpr, ∀ (d : Definition) (path : String) (t : TypeExpr),
        name ∉ d.explicitNames → resolve ⟨M, o⟩ path d = .ok t →
          ∃ t', resolve ⟨M', o⟩ path d = .ok t' ∧ t'.replace name u = t ∧
            (name ∈ t'.references →
              inlineType ⟨M, o⟩ nested = .ok u ∧
              declare ⟨M', o⟩ name id = .ok ({ name, type := .object u.fields }, [])) := by
  have hid : M.Has id := Registry.has_of_instance? hM.held
  refine ⟨M.named name id, Registry.bind_eq_ok hid hM.free, fun o => ?_⟩
  obtain ⟨u, hu⟩ : ∃ u, ∀ t, inlineType ⟨M, o⟩ nested = .ok t → t = u := by
    cases inlineType ⟨M, o⟩ nested with
    | ok u => exact ⟨u, fun t ht => (Except.ok.inj ht).symm⟩
    | error e => exact ⟨.anyObject, fun t ht => by cases ht⟩
  have hunfolds := typeAt_unfolds hM hu (Nat.le_refl (o.depthLimit + 1))
  refine ⟨u, fun d path t hd ht => ?_⟩
  obtain ⟨⟨t, optional⟩, htop, rfl⟩ := Outcome.map_eq_ok.1 ht
  obtain ⟨t', htop', hunfolds'⟩ := hunfolds _ _ _ _ hd htop
  refine ⟨t', Outcome.map_eq_ok.2 ⟨_, htop', rfl⟩, hunfolds'.replaced, fun hname => ?_⟩
  have hinline := hunfolds'.written hname
  refine ⟨hinline, ?_⟩
  obtain ⟨fields, hfields, hu⟩ := Outcome.map_eq_ok.1 hinline
  have hnested : name ∉ nested.explicitNames := fun hmem =>
    hM.unused (Registry.mem_explicitNames hM.held hmem)
  obtain ⟨fields', hfields', hreplaced, -⟩ := hunfolds.fieldsBelow rfl hnested hfields
  -- the definition does not occur in itself, or it would be larger than it is
  have hnot : name ∉ TypeExpr.fieldsReferences fields' :=
    TypeExpr.not_mem_fieldsReferences (hu.symm.trans (congrArg TypeExpr.ofFields hreplaced.symm))
  have hsame : fields' = u.fields := by
    rw [← hu, TypeExpr.fields_ofFields, ← hreplaced, TypeExpr.replaceFields_of_not_mem hnot]
  rw [← hsame]
  exact declare_of_fieldsBelow hM.held hfields' name

/-- An address that has no name, nested in an entry as it stands and in a list. -/
def address : Definition where
  rules := [("street", bareRuleOf (.scalar .text) [])]

@[inherit_doc address]
def contact : Definition where
  rules :=
    [("home", bareRuleOf (.nested ⟨0⟩) []),
     ("others", bareRuleOf .array []),
     ("others.$", bareRuleOf (.nested ⟨0⟩) [.scalar .text])]

@[inherit_doc address]
def addressBook : Registry where
  instances := [.schema address, .schema contact]
  entries := [("Contact", ⟨1⟩)]

/-- `({ street: string } | string)[]` becomes `(Address | string)[]`. -/
theorem resolve_bind_address :
    addressBook.Nameable ⟨0⟩ address "Address" ∧
      ∃ M', addressBook.bind "Address" ⟨0⟩ = .ok M' ∧ ∃ u t',
        resolve ⟨M', {}⟩ "others" contact = .ok t' ∧ "Address" ∈ t'.references ∧
          t'.replace "Address" u = .array (.union
            [.object [⟨"street", .scalar "string", false⟩], .scalar "string"]) ∧
          declare ⟨M', {}⟩ "Address" ⟨0⟩ = .ok (⟨"Address", .object u.fields⟩, []) := by
  have hM : addressBook.Nameable ⟨0⟩ address "Address" :=
    ⟨rfl, by decide +kernel, by decide +kernel, by decide +kernel⟩
  obtain ⟨M', hbind, hnamed⟩ := resolve_bind_eq_ok hM
  obtain ⟨u, hu⟩ := hnamed {}
  obtain ⟨t', ht', hreplaced, hdeclared⟩ :=
    hu contact "others" (.array (.union
      [.object [⟨"street", .scalar "string", false⟩], .scalar "string"])) (by decide +kernel) rfl
  obtain rfl : addressBook.named "Address" ⟨0⟩ = M' :=
    Except.ok.inj ((Registry.bind_eq_ok (Registry.has_of_instance? hM.held) hM.free).symm.trans hbind)
  obtain rfl : .array (.union [.reference "Address", .scalar "string"]) = t' := Except.ok.inj ht'
  have hname : "Address" ∈
      TypeExpr.references (.array (.union [.reference "Address", .scalar "string"])) := by
    simp [TypeExpr.references, TypeExpr.armsReferences]
  exact ⟨hM, _, hbind, u, _, ht', hname, hreplaced, (hdeclared hname).2⟩

end Resolver

end SchemaTyping
