import SchemaTyping.Proofs.Registry.Closed
import SchemaTyping.Proofs.Resolution.Limit
import SchemaTyping.Proofs.Resolution.Nesting

set_option autoImplicit false

/-! # Registries from which everything is generated

A well-formed registry (`Resolver.WellFormed`) is declared without a gap: no field is missing, whatever the
policy for missing fields says (`generate_of_wellFormed`).

The places that a resolution comes to are declared: the keys of an entry are, since the definition declares
every path above a declared one, and `Resolver.Step.declared` carries it from a place to the next. At a
declared place nothing is refused but a nesting beyond the limit (`Resolver.isCyclic_of_typeAt`), and that
takes a chain that is longer than the limit. -/

namespace SchemaTyping

/-- Every list says what its elements are: its rule, unless it has an explicit name, comes with a rule at the
    wildcard segment. -/
def Definition.ElementsDeclared (d : Definition) (wildcard : String) : Prop :=
  ∀ (path : String) (rule : Rule), path ≠ "" → d.rule? path = some rule → rule.explicitName = none →
    .array ∈ rule.candidates → d.rule? (Path.join path wildcard) ≠ none

theorem Definition.elementsDeclared_iff {d : Definition} {wildcard : String} :
    d.ElementsDeclared wildcard ↔ ∀ path ∈ d.rules.names, path ≠ "" → ∀ rule ∈ d.rule? path,
      rule.explicitName = none → .array ∈ rule.candidates →
        d.rule? (Path.join path wildcard) ≠ none := by
  constructor
  · intro h path _ hpath rule hrule
    exact h path rule hpath hrule
  · intro h path rule hpath hrule
    have hmem : path ∈ d.rules.names := List.mem_map.2 ⟨_, Table.mem_of_get?_eq_some hrule, rfl⟩
    exact h path hmem hpath rule hrule

instance {d : Definition} {wildcard : String} : Decidable (d.ElementsDeclared wildcard) :=
  decidable_of_iff' _ Definition.elementsDeclared_iff

namespace Resolver

/-- A registry in which everything that is looked up is there. -/
structure WellFormed (r : Resolver) : Prop where
  closed : r.registry.Closed
  parents : ∀ d, .schema d ∈ r.registry.instances → d.ParentClosed
  elements : ∀ d, .schema d ∈ r.registry.instances → d.ElementsDeclared r.options.wildcardSegment
  literal : ∀ values, .values values ∈ r.registry.instances → ∀ j, .structured j ∉ values
  /-- No field of an entry is nested more deeply than the limit. -/
  bounded : ∀ entry ∈ r.registry.entries, ∀ d,
    r.registry.instance? entry.2 = some (.schema d) →
      ∀ key ∈ d.childKeys "" r.options.wildcardSegment, ∀ n b, r.Chain n (d, key) b →
        n ≤ r.options.depthLimit

/-- A place where the registry declares a field. -/
structure Declared (r : Resolver) (a : Place) : Prop where
  held : .schema a.1 ∈ r.registry.instances
  below : a.2 ≠ ""
  declared : a.1.rule? a.2 ≠ none

variable {r : Resolver}

/-! ## Places that are come to -/

/-- The field under a key is declared. -/
theorem WellFormed.declared_of_mem_childKeys (hr : r.WellFormed) {d : Definition}
    (held : .schema d ∈ r.registry.instances) {parent key : String}
    (hkey : key ∈ d.childKeys parent r.options.wildcardSegment) :
    r.Declared (d, Path.join parent key) where
  held := held
  below := fun hempty => (Definition.mem_childKeys hkey).1 (Path.join_eq_empty_iff.1 hempty).2
  declared := Definition.declared_of_mem_childKeys (hr.parents d held) hkey

/-- **A step leads from a declared place to a declared one.** -/
theorem Step.declared (hr : r.WellFormed) {a b : Place} (hstep : r.Step a b)
    (ha : r.Declared a) : r.Declared b := by
  cases hstep with
  | element declared implicit listed =>
      refine ⟨ha.held, fun hempty => ha.below (Path.join_eq_empty_iff.1 hempty).1, ?_⟩
      exact hr.elements _ ha.held _ _ ha.below declared implicit listed
  | field declared implicit listed below => exact hr.declared_of_mem_childKeys ha.held below
  | inline declared implicit listed unbound held below =>
      exact hr.declared_of_mem_childKeys (List.mem_of_getElem? held) below

/-! ## The types of declared places -/

/-- The instances that a rule lists have types, or names to refer to them by. -/
theorem WellFormed.not_refuses (hr : r.WellFormed) (hfirst : r.options.references = .firstMatch)
    {d : Definition} (held : .schema d ∈ r.registry.instances) {path : String} {rule : Rule}
    (hrule : d.rule? path = some rule) {e : ResolveError} : ¬r.Refuses path rule e := by
  intro h
  cases h with
  | ambiguous listed found shared strict => cases hfirst.symm.trans strict
  | structured listed holder among =>
      exact hr.literal _ (List.mem_of_getElem? holder) _ among
  | missing listed absent =>
      have hid := Definition.mem_ids_of_rule? hrule (Rule.mem_ids.2 listed)
      obtain ⟨i, hi⟩ := (hr.closed.instances _ held _ hid).exists_instance?
      cases absent.symm.trans hi

/-- **Nothing is refused at a declared place, except for its nesting.** -/
theorem isCyclic_of_typeAt (hr : r.WellFormed) (hfirst : r.options.references = .firstMatch)
    {levels : Nat} {a : Place} (ha : r.Declared a) {e : ResolveError}
    (h : r.typeAt levels a.1 a.2 = .error e) : e.IsCyclic := by
  rcases origin_of_typeAt h with hcyclic | ⟨n, b, hchain, hblames⟩
  · exact hcyclic
  have hb : r.Declared b := hchain.keeps (fun hstep => hstep.declared hr) ha
  rcases hblames with ⟨hnone, -⟩ | ⟨rule, hrule, hrefuses⟩
  · exact absurd hnone hb.declared
  · exact absurd hrefuses (hr.not_refuses hfirst hb.held hrule)

/-- A declared place from which no chain goes beyond the limit has a type. -/
theorem exists_of_declared (hr : r.WellFormed) (hfirst : r.options.references = .firstMatch)
    {a : Place} (ha : r.Declared a) (hbound : ∀ n b, r.Chain n a b → n ≤ r.options.depthLimit) :
    ∃ found, r.top a.1 a.2 = .ok found := by
  cases h : r.top a.1 a.2 with
  | ok found => exact ⟨found, rfl⟩
  | error e =>
      obtain ⟨path, limit, rfl⟩ := isCyclic_of_typeAt hr hfirst ha h
      obtain ⟨-, d', hchain⟩ := exists_chain_of_typeAt h
      exact absurd (hbound _ _ hchain) (by omega)

/-! ## Declarations -/

/-- A declaration has the name of its entry, and that of a definition all its fields. -/
def Declares (r : Resolver) (entry : String × InstanceId) (declared : Declaration) : Prop :=
  declared.name = entry.1 ∧
    ∀ d, r.registry.instance? entry.2 = some (.schema d) →
      ∃ fields, declared.type = .object fields ∧
        fields.map (·.name) = d.childKeys "" r.options.wildcardSegment

theorem exists_fieldsBelow (hr : r.WellFormed) (hfirst : r.options.references = .firstMatch)
    {entry : String × InstanceId} (hentry : entry ∈ r.registry.entries) {d : Definition}
    (held : r.registry.instance? entry.2 = some (.schema d)) :
    ∃ fields, r.fieldsBelow r.top d "" = .ok fields ∧
      fields.map (·.name) = d.childKeys "" r.options.wildcardSegment := by
  have hfields : ∀ key ∈ d.childKeys "" r.options.wildcardSegment,
      ∃ field, fieldAt r.top d "" key = .ok field ∧ field.name = key := by
    intro key hkey
    have hdeclared := hr.declared_of_mem_childKeys (List.mem_of_getElem? held) hkey
    obtain ⟨found, hfound⟩ := exists_of_declared hr hfirst hdeclared (hr.bounded _ hentry _ held _ hkey)
    exact ⟨⟨key, found.1, found.2⟩, fieldAt_eq_ok.2 ⟨hfound, rfl⟩, rfl⟩
  obtain ⟨fields, hok, hnames⟩ := Outcome.exists_mapM_eq_ok hfields
  refine ⟨fields, hok, ?_⟩
  rw [← List.forall₂_eq_eq_eq, List.forall₂_map_left_iff]
  exact hnames.flip

theorem exists_declare (hr : r.WellFormed) (hfirst : r.options.references = .firstMatch)
    {entry : String × InstanceId} (hentry : entry ∈ r.registry.entries) :
    ∃ declared, r.declare entry.1 entry.2 = .ok (declared, []) ∧ r.Declares entry declared := by
  obtain ⟨i, held⟩ := (hr.closed.entries entry hentry).exists_instance?
  cases i with
  | schema d =>
      obtain ⟨fields, hfields, hnames⟩ := exists_fieldsBelow hr hfirst hentry held
      refine ⟨_, declare_of_fieldsBelow held hfields entry.1, rfl, fun d' held' => ?_⟩
      cases held.symm.trans held'
      exact ⟨fields, rfl, hnames⟩
  | values values =>
      have hliteral := hr.literal values (List.mem_of_getElem? held)
      cases htype : literalsType entry.1 values with
      | error e =>
          obtain ⟨j, hj, -⟩ := literalsType_eq_error htype
          exact absurd hj (hliteral j)
      | ok type =>
          refine ⟨{ name := entry.1, type }, ?_, rfl, fun d held' => nomatch held.symm.trans held'⟩
          simp only [declare, held, htype]

end Resolver

/-- **Everything is generated from a well-formed registry.** Each entry is declared, a definition with all its
    top-level fields, and nothing is reported but the instances with several names. The policy for missing
    fields does not matter. -/
theorem generate_of_wellFormed {M : Registry} {o : Options} (h : Resolver.WellFormed ⟨M, o⟩)
    (hfirst : o.references = .firstMatch) :
    ∃ g, generate M o = .ok g ∧ g.diagnostics = M.aliases.map .ambiguousReference ∧
      List.Forall₂ (Resolver.Declares ⟨M, o⟩) M.entries g.declarations := by
  have hentries : ∀ entry ∈ M.entries, ∃ result : Declaration × List Diagnostic,
      Resolver.declare ⟨M, o⟩ entry.1 entry.2 = .ok result ∧
        result.2 = [] ∧ Resolver.Declares ⟨M, o⟩ entry result.1 := by
    intro entry hentry
    obtain ⟨declared, hdeclare, hdeclares⟩ := Resolver.exists_declare h hfirst hentry
    exact ⟨_, hdeclare, rfl, hdeclares⟩
  obtain ⟨results, hresults, hall⟩ := Outcome.exists_mapM_eq_ok hentries
  have hskipped : results.flatMap (·.2) = [] := by
    clear hresults
    generalize M.entries = entries at hall
    induction hall with
    | nil => rfl
    | cons hresult _ ih => simp [hresult.1, ih]
  refine ⟨_, Outcome.bind_eq_ok.2 ⟨results, hresults, rfl⟩, ?_, ?_⟩
  · rw [hskipped, List.append_nil]
  · exact List.forall₂_map_right_iff.2 (hall.imp fun _ _ h => h.2)

/-- An order lists its items, is shipped to an address without a name and has a state of its own. -/
def order : Definition where
  rules :=
    [("items", Resolver.bareRuleOf .array []),
     ("items.$", Resolver.bareRuleOf .object []),
     ("items.$.sku", Resolver.bareRuleOf (.scalar .text) []),
     ("shipped", Resolver.bareRuleOf (.nested ⟨1⟩) []),
     ("state", Resolver.bareRuleOf (.nested ⟨2⟩) [])]

@[inherit_doc order]
def orders : Registry where
  instances :=
    [.schema order,
     .schema { rules :=
       [("city", Resolver.bareRuleOf (.scalar .text) [])] },
     .values [.literal (.text "open")]]
  entries := [("Order", ⟨0⟩), ("Purchase", ⟨0⟩), ("State", ⟨2⟩)]

/-- Two levels are enough for the orders. -/
theorem generate_orders :
    Resolver.WellFormed ⟨orders, { maxDepth := 2, missingFields := .skip }⟩ ∧
      ∃ g, generate orders { maxDepth := 2, missingFields := .skip } = .ok g ∧
        g.diagnostics = [.ambiguousReference ["Order", "Purchase"]] ∧
        List.Forall₂ (Resolver.Declares ⟨orders, { maxDepth := 2, missingFields := .skip }⟩)
          orders.entries g.declarations := by
  have hfound : ∀ key ∈ order.childKeys "" "$",
      ∃ found, Resolver.top ⟨orders, { maxDepth := 2, missingFields := .skip }⟩ order key = .ok found := by
    have hkeys : order.childKeys "" "$" = ["items", "shipped", "state"] := by decide +kernel
    rw [hkeys]
    simp only [List.forall_mem_cons]
    exact ⟨⟨_, rfl⟩, ⟨_, rfl⟩, ⟨_, rfl⟩, nofun⟩
  have hformed : Resolver.WellFormed ⟨orders, { maxDepth := 2, missingFields := .skip }⟩ := by
    refine ⟨⟨by unfold Registry.Has; decide, by unfold Registry.Has; decide⟩, ?_, ?_, ?_, ?_⟩
    · simp only [orders, List.mem_cons, List.not_mem_nil, or_false, Instance.schema.injEq]
      rintro d (rfl | rfl | h)
      · decide +kernel
      · decide +kernel
      · cases h
    · simp only [orders, List.mem_cons, List.not_mem_nil, or_false, Instance.schema.injEq]
      rintro d (rfl | rfl | h)
      · decide +kernel
      · decide +kernel
      · cases h
    · simp [orders]
    · intro entry hentry d held key hkey n b hchain
      have hd : d = order := by
        simp only [orders, List.mem_cons, List.not_mem_nil, or_false] at hentry
        rcases hentry with rfl | rfl | rfl <;> cases held <;> rfl
      subst hd
      obtain ⟨found, htop⟩ := hfound key hkey
      exact Nat.le_of_lt_succ (Resolver.lt_of_chain_of_typeAt (a := (order, key)) htop hchain)
  obtain ⟨g, hg, hdiagnostics, hall⟩ := generate_of_wellFormed hformed rfl
  exact ⟨hformed, g, hg, hdiagnostics, hall⟩

end SchemaTyping
