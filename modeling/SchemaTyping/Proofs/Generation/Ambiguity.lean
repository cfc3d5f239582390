import SchemaTyping.Proofs.Generation.Renaming
import SchemaTyping.Proofs.Registry.Names
import SchemaTyping.Proofs.Resolution.Comparison
import SchemaTyping.Proofs.Resolution.Nesting

set_option autoImplicit false

/-! # Refusing references to shared instances

The strict policy adds one refusal and nothing else. The two resolvers only differ in what they make of the
names of an instance, where the strict one may refuse them as ambiguous, so they are `Comparable` with that
reason set aside: whatever else the strict one says, a type or another refusal, the other one says as well.

What it refuses is a group of aliases (`Resolver.exists_namesOf_of_ambiguous`), since a refusal comes from a
rule that lists an instance with several names. Where no instance has several names the two agree on
everything (`strict_adds_ambiguity`). -/

namespace SchemaTyping

/-- The options with this policy for references to instances with several names. -/
def Options.withReferences (o : Options) (policy : ReferencePolicy) : Options :=
  { o with references := policy }

/-- The error of a reference to an instance with several names. -/
def ResolveError.IsAmbiguous (e : ResolveError) : Prop := ∃ path names, e = .ambiguous path names

/-! ## Groups of names -/

namespace Registry

variable {M : Registry} {id : InstanceId} {reference : Reference}

/-- The names of an ambiguous reference are a group of aliases. -/
theorem mem_aliases_of_reference? (h : M.reference? id = some reference)
    (hshared : reference.isAmbiguous) : M.namesOf id ∈ M.aliases := by
  refine mem_aliases.2 ⟨id, rfl, ?_⟩
  rw [← names_of_reference? h, Reference.names, List.length_cons]
  simpa [Reference.isAmbiguous, List.length_pos_iff] using hshared

/-- Names of an instance stand in registry order. -/
theorem namesOf_sublist (M : Registry) (id : InstanceId) : (M.namesOf id).Sublist M.entries.names := by
  rw [namesOf_eq]
  exact List.filter_sublist.map _

end Registry

namespace Resolver

variable {M : Registry} {o : Options}

/-! ## What is refused as ambiguous -/

/-- **What is refused as ambiguous is what the names of an instance are**, and there are several. -/
theorem exists_namesOf_of_ambiguous {r : Resolver} {path at' : String} {d : Definition}
    {names : List String} (h : r.resolve path d = .error (.ambiguous at' names)) :
    r.options.references = .strict ∧ ∃ id, names = r.registry.namesOf id ∧ names ∈ r.registry.aliases := by
  rcases origin_of_typeAt (a := (d, path)) (Outcome.map_eq_error.1 h) with
    ⟨_, _, hcyclic⟩ | ⟨n, b, -, ⟨-, hundeclared⟩ | ⟨rule, -, hrefuses⟩⟩
  · cases hcyclic
  · cases hundeclared
  · cases hrefuses with
    | ambiguous listed found shared strict =>
        rw [Registry.names_of_reference? found]
        exact ⟨strict, _, rfl, Registry.mem_aliases_of_reference? found shared⟩

/-! ## The two resolvers -/

/-- The names of an instance are made the same of, or refused as ambiguous by the strict policy. -/
theorem referenceType_strict (path : String) (id : InstanceId) :
    Outcome.AgreeUnless ResolveError.IsAmbiguous
      (referenceType ⟨M, o.withReferences .strict⟩ path id)
      (referenceType ⟨M, o.withReferences .firstMatch⟩ path id) := by
  unfold referenceType Options.withReferences
  cases M.reference? id with
  | none => exact .refl _
  | some reference =>
      by_cases hshared : reference.isAmbiguous
      · exact Or.inl ⟨_, if_pos ⟨hshared, rfl⟩, path, reference.names, rfl⟩
      · exact Or.inr (by simp [hshared])

theorem comparable_strict (M : Registry) (o : Options) :
    Comparable ResolveError.IsAmbiguous ⟨M, o.withReferences .strict⟩
      ⟨M, o.withReferences .firstMatch⟩ where
  wildcardSegment := rfl
  scalarNames := rfl
  instances := fun _ => rfl
  references := referenceType_strict

/-- Where no instance has several names there is nothing to refuse. -/
theorem comparable_of_aliases_eq_nil (h : M.aliases = []) (o : Options) :
    Comparable (fun _ => False) ⟨M, o.withReferences .strict⟩ ⟨M, o.withReferences .firstMatch⟩ where
  wildcardSegment := rfl
  scalarNames := rfl
  instances := fun _ => rfl
  references := by
    intro path id
    rcases referenceType_strict (M := M) (o := o) path id with ⟨e, he, _, names, rfl⟩ | heq
    · unfold referenceType at he
      split at he
      · next reference found =>
          have hnone := fun hshared => Registry.mem_aliases_of_reference? found hshared
          simp only [h, List.not_mem_nil, imp_false] at hnone
          simp [hnone] at he
      · cases he
    · exact Or.inr heq

end Resolver

/-- **The strict policy only adds one kind of refusal.** A field has the type that it has without the policy,
    or the refusal, unless it is refused as ambiguous; then the names are a group of aliases, in registry
    order. Where no instance has several names the policy changes nothing. -/
theorem strict_adds_ambiguity (M : Registry) (o : Options) :
    (∀ (path : String) (d : Definition),
      (∀ at' names, Resolver.resolve ⟨M, o.withReferences .strict⟩ path d ≠ .error (.ambiguous at' names)) →
        Resolver.resolve ⟨M, o.withReferences .firstMatch⟩ path d
          = Resolver.resolve ⟨M, o.withReferences .strict⟩ path d) ∧
    (∀ (path : String) (d : Definition) (at' : String) (names : List String),
      Resolver.resolve ⟨M, o.withReferences .strict⟩ path d = .error (.ambiguous at' names) →
        names ∈ M.aliases ∧ names.Sublist M.entries.names) ∧
    (M.aliases = [] →
      (∀ (path : String) (d : Definition),
        Resolver.resolve ⟨M, o.withReferences .firstMatch⟩ path d
          = Resolver.resolve ⟨M, o.withReferences .strict⟩ path d) ∧
      generate M (o.withReferences .firstMatch) = generate M (o.withReferences .strict)) := by
  refine ⟨fun path d hother => ?_, fun path d at' names h => ?_, fun hnone => ⟨fun path d => ?_, ?_⟩⟩
  · rcases (Resolver.comparable_strict M o).resolve rfl rfl path with ⟨e, he, at', names, rfl⟩ | heq
    · exact absurd he (hother at' names)
    · exact heq
  · obtain ⟨-, id, rfl, hmem⟩ := Resolver.exists_namesOf_of_ambiguous h
    exact ⟨hmem, M.namesOf_sublist id⟩
  · exact ((Resolver.comparable_of_aliases_eq_nil hnone o).resolve rfl rfl path).eq fun _ => id
  · have hdeclare := (Resolver.comparable_of_aliases_eq_nil hnone o).declare (fun _ => id) rfl rfl
    unfold generate
    simp only [hdeclare]
    rfl

/-- The field `next` of a node holds an anonymous object that refers back to it. That is refused while the
    node has two names, and not when it has one; a field that is not there is refused the same either way. -/
theorem strict_adds_ambiguity_nodes :
    ∃ node, nodes.instance? ⟨0⟩ = some (.schema node) ∧
      (Resolver.resolve ⟨nodes, Options.withReferences {} .strict⟩ "next" node
          = .error (.ambiguous "back" ["Node", "Tree"]) ∧ ["Node", "Tree"] ∈ nodes.aliases) ∧
      Resolver.resolve ⟨nodes, Options.withReferences {} .firstMatch⟩ "previous" node
        = .error (.undeclared "previous") ∧
      Resolver.resolve ⟨{ nodes with entries := [("Node", ⟨0⟩)] }, Options.withReferences {} .firstMatch⟩
          "next" node
        = Resolver.resolve ⟨{ nodes with entries := [("Node", ⟨0⟩)] }, Options.withReferences {} .strict⟩
          "next" node := by
  obtain ⟨hother, hambiguous, -⟩ := strict_adds_ambiguity nodes {}
  obtain ⟨-, -, hsingle⟩ := strict_adds_ambiguity { nodes with entries := [("Node", ⟨0⟩)] } {}
  obtain ⟨node, hnode, hrefused, hundeclared⟩ : ∃ node, nodes.instance? ⟨0⟩ = some (.schema node) ∧
      Resolver.resolve ⟨nodes, Options.withReferences {} .strict⟩ "next" node
        = .error (.ambiguous "back" ["Node", "Tree"]) ∧
      Resolver.resolve ⟨nodes, Options.withReferences {} .strict⟩ "previous" node
        = .error (.undeclared "previous") := ⟨_, rfl, rfl, rfl⟩
  have hsame := hother "previous" node fun _ _ h => nomatch hundeclared.symm.trans h
  exact ⟨node, hnode, ⟨hrefused, (hambiguous _ _ _ _ hrefused).1⟩, hsame.trans hundeclared,
    (hsingle rfl).1 "next" node⟩

end SchemaTyping
