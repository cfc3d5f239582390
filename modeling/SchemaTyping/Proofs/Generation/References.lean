import SchemaTyping.Proofs.Generation.Declaring
import SchemaTyping.Proofs.Resolution.Naming

set_option autoImplicit false

/-! # References lead somewhere

Whatever a resolved type refers to, at any depth and in any definition that is written out in it, is the
explicit name of a rule or the first name of an instance: there is no other rule of typing that makes a
reference (`Typing.refers`). A pass declares every name of the registry, so a reference in what it
generates is declared as well unless it is an explicit name, and a name that is not the first of its
instance is only referred to where it is one (`generate_references`). -/

namespace SchemaTyping

/-- What a type may refer to: the explicit name of a rule, or the first name of an instance. -/
def Registry.Refers (M : Registry) (name : String) : Prop :=
  name ∈ M.explicitNames ∨ ∃ id aliases, M.namesOf id = name :: aliases

namespace Registry

variable {M : Registry} {name : String}

theorem Refers.mem_names (h : M.Refers name) :
    name ∈ M.entries.names ∨ name ∈ M.explicitNames := by
  rcases h with hexplicit | ⟨id, aliases, hfirst⟩
  · exact Or.inr hexplicit
  · have hmem : name ∈ M.namesOf id := hfirst ▸ List.mem_cons_self
    exact Or.inl (mem_names_of_mem_namesOf hmem)

/-- A name that is not the first of its instance is referred to as an explicit name only. -/
theorem Refers.explicit_of_alias (h : M.Refers name) (hM : M.entries.names.Nodup) {first : String}
    {others : List String} (hgroup : first :: others ∈ M.aliases) (hname : name ∈ others) :
    name ∈ M.explicitNames := by
  rcases h with hexplicit | ⟨id', aliases, hfirst⟩
  · exact hexplicit
  · obtain ⟨id, hid, -⟩ := mem_aliases.1 hgroup
    have hmem : name ∈ M.namesOf id := hid ▸ List.mem_cons_of_mem _ hname
    have hmem' : name ∈ M.namesOf id' := hfirst ▸ List.mem_cons_self
    -- the two lists are the names of one instance, and `name` stands once in them
    obtain rfl := eq_of_mem_namesOf hM hmem hmem'
    have hnodup := nodup_namesOf hM id
    rw [hid] at hnodup hfirst
    cases hfirst
    exact absurd hname (List.nodup_cons.1 hnodup).1

end Registry

/-! ## Types -/

variable {r : Resolver}

theorem Registry.explicitNames_subset {M : Registry} {id : InstanceId} {d : Definition}
    (held : M.instance? id = some (.schema d)) : d.explicitNames ⊆ M.explicitNames :=
  fun _ => M.mem_explicitNames held

mutual

/-- **A type refers to explicit names and to first names.** -/
theorem Typing.refers {d : Definition} {path : String} {t : TypeExpr}
    (hd : d.explicitNames ⊆ r.registry.explicitNames) :
    Typing r d path t → ∀ name ∈ t.references, r.registry.Refers name
  | .named declared explicit => fun name hname => by
      obtain rfl := List.mem_singleton.1 hname
      exact Or.inl (hd (Definition.mem_explicitNames declared explicit))
  | .single _ _ typed => fun name hname =>
      typed.refers hd name (List.mem_append_left _ hname)
  | .several _ _ _ typed => typed.refers hd

@[inherit_doc Typing.refers]
theorem ArmTypings.refers {d : Definition} {path : String} {candidates : List Candidate}
    {arms : List TypeExpr} (hd : d.explicitNames ⊆ r.registry.explicitNames) :
    ArmTypings r d path candidates arms →
      ∀ name ∈ TypeExpr.armsReferences arms, r.registry.Refers name
  | .nil => fun _ hname => absurd hname List.not_mem_nil
  | .cons first others => fun name hname =>
      (List.mem_append.1 hname).elim (first.refers hd name) (others.refers hd name)

@[inherit_doc Typing.refers]
theorem CandidateTyping.refers {d : Definition} {path : String} {candidate : Candidate}
    {t : TypeExpr} (hd : d.explicitNames ⊆ r.registry.explicitNames) :
    CandidateTyping r d path candidate t → ∀ name ∈ t.references, r.registry.Refers name
  | .scalar _ | .opaqueObject _ | .opaqueInline .. | .values .. =>
      fun _ hname => absurd hname List.not_mem_nil
  | .array element => fun name hname => element.refers hd name hname
  | .object _ typed => typed.refers hd
  | .reference bound _ => fun name hname => by
      obtain rfl := List.mem_singleton.1 hname
      exact Or.inr ⟨_, _, bound⟩
  | .inline _ held _ typed => typed.refers (Registry.explicitNames_subset held)

@[inherit_doc Typing.refers]
theorem FieldTypings.refers {d : Definition} {parent : String} {keys : List String}
    {fields : List (Field TypeExpr)} (hd : d.explicitNames ⊆ r.registry.explicitNames) :
    FieldTypings r d parent keys fields →
      ∀ name ∈ TypeExpr.fieldsReferences fields, r.registry.Refers name
  | .nil => fun _ hname => absurd hname List.not_mem_nil
  | .cons _ typed others => fun name hname =>
      (List.mem_append.1 hname).elim (typed.refers hd name) (others.refers hd name)

end

/-! ## Declarations -/

namespace Resolver

theorem refers_of_resolveField {d : Definition} (hd : d.explicitNames ⊆ r.registry.explicitNames)
    {path : String} {field : Field TypeExpr} (h : r.resolveField path d = .ok field) :
    ∀ name ∈ field.type.references, r.registry.Refers name := by
  obtain ⟨⟨type, optional⟩, htop, h⟩ := Outcome.bind_eq_ok.1 h
  cases h
  obtain ⟨δ, -⟩ := exists_typing_of_top htop
  exact δ.refers hd

theorem refers_of_declare {name : String} {id : InstanceId} {result : Declaration × List Diagnostic}
    (h : r.declare name id = .ok result) :
    ∀ other ∈ result.1.type.references, r.registry.Refers other := by
  intro other hother
  rcases declare_eq_ok h with ⟨d, fields, held, hfields, hdeclared⟩ |
    ⟨values, type, -, htype, hdeclared, -⟩ <;> rw [hdeclared] at hother
  · obtain ⟨field, hfield, hmem⟩ := TypeExpr.mem_fieldsReferences.1 hother
    obtain ⟨key, -, hresolve⟩ := exists_resolveField_of_keyFields hfields field hfield
    exact refers_of_resolveField (Registry.explicitNames_subset held) hresolve other hmem
  · obtain ⟨literals, -, rfl⟩ := literalsType_eq_ok.1 htype
    exact absurd hother List.not_mem_nil

end Resolver

/-- **What is generated has no dangling references.** The declarations are the names of the registry, in
    its order and each once. A reference at any depth is to one of them or is the explicit name of a
    rule, and a name that is not the first of its group of aliases is only ever an explicit name. -/
theorem generate_references {M : Registry} {o : Options} {g : Generated}
    (hM : M.entries.names.Nodup) (h : generate M o = .ok g) :
    g.declarations.map (·.name) = M.entries.names ∧ (g.declarations.map (·.name)).Nodup ∧
      ∀ declared ∈ g.declarations, ∀ name ∈ declared.type.references,
        (name ∈ g.declarations.map (·.name) ∨ name ∈ M.explicitNames) ∧
          ∀ first others, first :: others ∈ M.aliases → name ∈ others → name ∈ M.explicitNames := by
  obtain ⟨results, hresults, rfl⟩ := generate_eq_ok.1 h
  have hnames : (results.map (·.1)).map (·.name) = M.entries.names := by
    rw [List.map_map]
    exact Resolver.names_of_mapM_declare hresults
  refine ⟨hnames, hnames ▸ hM, fun declared hdeclared name hname => ?_⟩
  obtain ⟨result, hresult, rfl⟩ := List.mem_map.1 hdeclared
  obtain ⟨entry, -, hdeclare⟩ := Outcome.exists_of_mem_of_mapM_eq_ok hresults result hresult
  have hrefers : M.Refers name := Resolver.refers_of_declare hdeclare name hname
  refine ⟨?_, fun first others hgroup hother => hrefers.explicit_of_alias hM hgroup hother⟩
  show name ∈ (results.map (·.1)).map (·.name) ∨ _
  rw [hnames]
  exact hrefers.mem_names

/-- A person has two names, and an order refers to persons in itself and in its lines, which have none. -/
def shop : Registry where
  instances :=
    [.schema { rules := [("name", Resolver.bareRuleOf (.scalar .text) [])] },
     .schema { rules :=
       [("buyer", Resolver.bareRuleOf (.nested ⟨0⟩) []),
        ("lines", Resolver.bareRuleOf .array []),
        ("lines.$", Resolver.bareRuleOf (.nested ⟨2⟩) []),
        ("total", { Resolver.bareRuleOf (.scalar .number) [] with explicitName := some "Money" })] },
     .schema { rules := [("seller", Resolver.bareRuleOf (.nested ⟨0⟩) [.scalar .text])] }]
  entries := [("Person", ⟨0⟩), ("Client", ⟨0⟩), ("Order", ⟨1⟩)]

/-- Nothing in the text of the shop refers to clients. -/
theorem references_of_shop :
    shop.entries.names.Nodup ∧ ∃ g, generate shop {} = .ok g ∧
      g.declarations.map (·.name) = ["Person", "Client", "Order"] ∧
      ∀ declared ∈ g.declarations, "Client" ∉ declared.type.references ∧
        ∀ name ∈ declared.type.references, name ∈ ["Person", "Client", "Order"] ∨ name = "Money" := by
  have hM : shop.entries.names.Nodup := by decide +kernel
  have hok : (generate shop {}).isOk = true := by decide +kernel
  have haliases : ["Person", "Client"] ∈ shop.aliases := by decide +kernel
  have hexplicit : shop.explicitNames = ["Money"] := by decide +kernel
  cases hg : generate shop {} with
  | error e =>
      rw [hg] at hok
      cases hok
  | ok g =>
      obtain ⟨hnames, -, hrefers⟩ := generate_references hM hg
      refine ⟨hM, g, rfl, hnames, fun declared hdeclared => ⟨fun hclient => ?_, fun name hname => ?_⟩⟩
      · have hmoney := (hrefers declared hdeclared "Client" hclient).2 _ _ haliases List.mem_cons_self
        rw [hexplicit] at hmoney
        exact absurd hmoney (by decide)
      · have hname' := (hrefers declared hdeclared name hname).1
        rw [hnames, hexplicit] at hname'
        exact hname'.imp id List.mem_singleton.1

end SchemaTyping
