import SchemaTyping.Proofs.Generation.Declaring
import SchemaTyping.Proofs.Registry.Literals

set_option autoImplicit false

/-! # Types that can be printed

The text of a type shows its structure only if the names in it are identifiers, its literals are values of
JSON and its objects and unions are no empty shells (`TypeExpr.Printable`). Every type that is resolved is
printable as soon as the names and the literals of the registry and of the options are fit to be
(`Registry.WellNamed`, `Options.WellNamed`), by induction on its derivation; so is every declaration that
a pass generates. -/

namespace SchemaTyping

/-! ## What can be printed -/

/-- Names are identifiers, literals are values of JSON, objects have fields and unions several arms. -/
inductive TypeExpr.Printable : TypeExpr → Prop where
  | scalar {name : String} (hname : isIdentifier name.toList = true) : Printable (.scalar name)
  | reference {name : String} (hname : isIdentifier name.toList = true) : Printable (.reference name)
  | anyObject : Printable .anyObject
  | array {item : TypeExpr} (h : Printable item) : Printable (.array item)
  | object {fields : List (Field TypeExpr)} (hfields : fields ≠ [])
      (h : ∀ field ∈ fields, Printable field.type) : Printable (.object fields)
  | union {arms : List TypeExpr} (hmany : 2 ≤ arms.length) (h : ∀ arm ∈ arms, Printable arm) :
      Printable (.union arms)
  | literals {values : List Literal} (h : ∀ l ∈ values, l.FromJson) : Printable (.literals values)

/-- A declared object may be without fields. -/
structure Declaration.Printable (d : Declaration) : Prop where
  name : isIdentifier d.name.toList = true
  type : d.type = .object [] ∨ d.type.Printable

/-- The explicit names of the rules are identifiers. -/
def Definition.WellNamed (d : Definition) : Prop :=
  ∀ entry ∈ d.rules, ∀ name, entry.2.explicitName = some name → isIdentifier name.toList = true

/-- All names are identifiers, and the literals are values of JSON. -/
structure Registry.WellNamed (r : Registry) : Prop where
  entry : ∀ entry ∈ r.entries, isIdentifier entry.1.toList = true
  explicit : ∀ d, Instance.schema d ∈ r.instances → d.WellNamed
  literal : ∀ values, Instance.values values ∈ r.instances →
    ∀ l, EnumValue.literal l ∈ values → l.FromJson

/-- The names of scalars and of objects are identifiers. -/
structure Options.WellNamed (o : Options) : Prop where
  scalar : ∀ kind, isIdentifier (o.scalarNames.name kind).toList = true
  object : isIdentifier o.objectName.toList = true

/-! ## Resolved types -/

section

variable {r : Resolver}

theorem Registry.mem_instances_of_instance? {registry : Registry} {id : InstanceId} {i : Instance}
    (h : registry.instance? id = some i) : i ∈ registry.instances := List.mem_of_getElem? h

theorem Registry.WellNamed.namesOf {registry : Registry} (h : registry.WellNamed) {id : InstanceId}
    {name : String} (hname : name ∈ registry.namesOf id) : isIdentifier name.toList = true :=
  h.entry _ (Registry.mem_namesOf.1 hname)

mutual

/-- **Every type that the rules derive is printable.** -/
theorem Typing.printable (hregistry : r.registry.WellNamed) (hoptions : r.options.WellNamed)
    {d : Definition} {path : String} {t : TypeExpr} (hd : d.WellNamed) :
    Typing r d path t → t.Printable
  | .named declared explicit =>
      .reference (hd _ (Table.mem_of_get?_eq_some declared) _ explicit)
  | .single _ _ arms => arms.printable hregistry hoptions hd _ List.mem_cons_self
  | .several _ _ many typed => .union many (typed.printable hregistry hoptions hd)

@[inherit_doc Typing.printable]
theorem ArmTypings.printable (hregistry : r.registry.WellNamed) (hoptions : r.options.WellNamed)
    {d : Definition} {path : String} {candidates : List Candidate} {arms : List TypeExpr}
    (hd : d.WellNamed) : ArmTypings r d path candidates arms → ∀ arm ∈ arms, arm.Printable
  | .nil => fun _ h => absurd h List.not_mem_nil
  | .cons first others => List.forall_mem_cons.2
      ⟨first.printable hregistry hoptions hd, others.printable hregistry hoptions hd⟩

@[inherit_doc Typing.printable]
theorem CandidateTyping.printable (hregistry : r.registry.WellNamed)
    (hoptions : r.options.WellNamed) {d : Definition} {path : String} {candidate : Candidate}
    {t : TypeExpr} (hd : d.WellNamed) : CandidateTyping r d path candidate t → t.Printable
  | .scalar kind => .scalar (hoptions.scalar kind)
  | .array element => .array (element.printable hregistry hoptions hd)
  | .object inhabited typed => .object inhabited (typed.printable hregistry hoptions hd)
  | .opaqueObject _ => .anyObject
  | .reference bound _ => .reference (hregistry.namesOf (bound ▸ List.mem_cons_self))
  | .inline _ held inhabited typed =>
      have hnested := hregistry.explicit _ (Registry.mem_instances_of_instance? held)
      .object inhabited (typed.printable hregistry hoptions hnested)
  | .opaqueInline _ _ _ => .anyObject
  | .values _ held => .literals fun l hl =>
      hregistry.literal _ (Registry.mem_instances_of_instance? held) l
        (List.mem_map_of_mem (List.mem_eraseDups.1 hl))

@[inherit_doc Typing.printable]
theorem FieldTypings.printable (hregistry : r.registry.WellNamed) (hoptions : r.options.WellNamed)
    {d : Definition} {parent : String} {keys : List String} {fields : List (Field TypeExpr)}
    (hd : d.WellNamed) : FieldTypings r d parent keys fields → ∀ field ∈ fields, field.type.Printable
  | .nil => fun _ h => absurd h List.not_mem_nil
  | .cons _ typed others => List.forall_mem_cons.2
      ⟨typed.printable hregistry hoptions hd, others.printable hregistry hoptions hd⟩

end

theorem Resolver.resolveField_printable (hregistry : r.registry.WellNamed)
    (hoptions : r.options.WellNamed) {d : Definition} (hd : d.WellNamed) {path : String}
    {field : Field TypeExpr} (h : r.resolveField path d = .ok field) : field.type.Printable := by
  obtain ⟨⟨type, optional⟩, htop, h⟩ := Outcome.bind_eq_ok.1 h
  cases h
  obtain ⟨δ, -⟩ := Resolver.exists_typing_of_top htop
  exact δ.printable hregistry hoptions hd

/-! ## Declarations -/

theorem Resolver.declare_printable (hregistry : r.registry.WellNamed)
    (hoptions : r.options.WellNamed) {name : String} {id : InstanceId}
    (hname : isIdentifier name.toList = true) {result : Declaration × List Diagnostic}
    (h : r.declare name id = .ok result) : result.1.Printable := by
  rcases Resolver.declare_eq_ok h with ⟨d, fields, held, hfields, hdeclared⟩ |
    ⟨values, type, held, htype, hdeclared, -⟩ <;> rw [hdeclared] <;> refine ⟨hname, ?_⟩
  · have hd := hregistry.explicit _ (Registry.mem_instances_of_instance? held)
    cases fields with
    | nil => exact Or.inl rfl
    | cons first rest =>
        refine Or.inr (.object (List.cons_ne_nil _ _) fun field hfield => ?_)
        obtain ⟨key, -, hresolve⟩ := Resolver.exists_resolveField_of_keyFields hfields field hfield
        exact Resolver.resolveField_printable hregistry hoptions hd hresolve
  · obtain ⟨literals, rfl, rfl⟩ := literalsType_eq_ok.1 htype
    have hliterals := hregistry.literal _ (Registry.mem_instances_of_instance? held)
    exact Or.inr (.literals fun l hl => hliterals l (List.mem_map_of_mem (List.mem_eraseDups.1 hl)))

end

/-- **What is generated can be printed:** a declaration for each name, in registry order. -/
theorem generate_printable {registry : Registry} {options : Options} {g : Generated}
    (hregistry : registry.WellNamed) (hoptions : options.WellNamed)
    (h : generate registry options = .ok g) :
    g.objectName = options.objectName ∧ g.header = options.header ∧
      g.declarations.map (·.name) = registry.entries.names ∧
      ∀ d ∈ g.declarations, d.Printable := by
  obtain ⟨results, hresults, rfl⟩ := generate_eq_ok.1 h
  refine ⟨rfl, rfl, ?_, List.forall_mem_map.2 fun result hresult => ?_⟩
  · rw [List.map_map]
    exact Resolver.names_of_mapM_declare hresults
  · obtain ⟨entry, hentry, hdeclare⟩ := Outcome.exists_of_mem_of_mapM_eq_ok hresults result hresult
    exact Resolver.declare_printable (r := ⟨registry, options⟩) hregistry hoptions
      (hregistry.entry entry hentry) hdeclare

end SchemaTyping
