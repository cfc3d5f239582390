import SchemaTyping.Proofs.Registry.Closed

set_option autoImplicit false

/-! # Registries that differ in constraints

The constraints of a rule are recorded and shape no type. `strip` takes them away, from a rule, a definition
or an instance. `Registry.Resembles r s` states that `s` is `r` but for constraints: the names are the same,
and under every id there is the same instance once both are stripped. The operations of a registry keep this
up when they are given instances that only differ in constraints. -/

namespace SchemaTyping

/-! ## Stripping -/

/-- A rule without its constraints. -/
def Rule.strip (rule : Rule) : Rule := { rule with constraints := {} }

/-- A definition without the constraints of its rules. -/
def Definition.strip (d : Definition) : Definition := { rules := d.rules.mapValues Rule.strip }

/-- An instance without the constraints of its rules. -/
def Instance.strip : Instance → Instance
  | .schema d => .schema d.strip
  | .values held => .values held

@[simp] theorem Rule.strip_strip (rule : Rule) : rule.strip.strip = rule.strip := rfl

theorem Definition.strip_strip (d : Definition) : d.strip.strip = d.strip := by
  simp [strip, Table.mapValues, Function.comp_def]

theorem Instance.strip_strip (i : Instance) : i.strip.strip = i.strip := by
  cases i with
  | schema d => exact congrArg Instance.schema d.strip_strip
  | values held => rfl

/-- Constraints apart, a rule has candidates, a name and an optionality. -/
theorem Rule.eq_of_strip {rule rule' : Rule} (h : rule'.strip = rule.strip) :
    rule'.candidates = rule.candidates ∧ rule'.explicitName = rule.explicitName ∧
      rule'.optionality = rule.optionality := by
  simp only [strip, mk.injEq] at h
  exact ⟨h.1, h.2.1, h.2.2.1⟩

/-- Only holders with the same values are the same without constraints. -/
theorem Instance.strip_eq_values {i : Instance} {held : List EnumValue} :
    i.strip = .values held ↔ i = .values held := by
  cases i <;> simp [strip]

theorem Instance.strip_eq_schema {i : Instance} {d : Definition} :
    i.strip = .schema d ↔ ∃ d', i = .schema d' ∧ d'.strip = d := by
  cases i <;> simp [strip]

namespace Definition

variable {d d' : Definition}

theorem insert_strip (d : Definition) (path : String) (rule : Rule) :
    d.strip.insert path rule.strip = (d.insert path rule).strip :=
  congrArg Definition.mk (Table.insert_mapValues _ _ _ _)

theorem childKeys_strip (d : Definition) (parent wildcard : String) :
    d.strip.childKeys parent wildcard = d.childKeys parent wildcard := by
  simp only [childKeys, strip, Table.names_mapValues]

theorem rule?_strip (d : Definition) (path : String) :
    d.strip.rule? path = (d.rule? path).map Rule.strip := Table.get?_mapValues _ _ _

/-- Definitions that only differ in constraints have the same keys. -/
theorem childKeys_of_strip (h : d'.strip = d.strip) (parent wildcard : String) :
    d'.childKeys parent wildcard = d.childKeys parent wildcard := by
  rw [← childKeys_strip d', h, childKeys_strip]

/-- Definitions that only differ in constraints declare the same paths, with rules that only differ in
    constraints. -/
theorem rule?_of_strip (h : d'.strip = d.strip) (path : String) :
    (d'.rule? path).map Rule.strip = (d.rule? path).map Rule.strip := by
  rw [← rule?_strip d', h, rule?_strip]

end Definition

/-! ## Registries -/

namespace Registry

/-- `s` is `r` but for the constraints of rules. -/
structure Resembles (r s : Registry) : Prop where
  entries : s.entries = r.entries
  instances : s.instances.map Instance.strip = r.instances.map Instance.strip

variable {r s : Registry}

theorem Resembles.refl (r : Registry) : r.Resembles r := ⟨rfl, rfl⟩

theorem Resembles.length_eq (h : r.Resembles s) : s.instances.length = r.instances.length := by
  simpa using congrArg List.length h.instances

theorem Resembles.has_iff (h : r.Resembles s) (id : InstanceId) : s.Has id ↔ r.Has id := by
  rw [Has, Has, h.length_eq]

/-- Under every id there is the same instance, but for constraints. -/
theorem Resembles.instance? (h : r.Resembles s) (id : InstanceId) :
    (s.instance? id).map Instance.strip = (r.instance? id).map Instance.strip := by
  simp only [Registry.instance?, ← List.getElem?_map, h.instances]

theorem Resembles.add (h : r.Resembles s) {i j : Instance} (hi : j.strip = i.strip) :
    (r.add i).1.Resembles (s.add j).1 := by
  refine ⟨h.entries, ?_⟩
  simp [Registry.add, h.instances, hi]

theorem Resembles.add_snd (h : r.Resembles s) (i j : Instance) : (s.add j).2 = (r.add i).2 :=
  congrArg InstanceId.mk h.length_eq

theorem Resembles.set (h : r.Resembles s) {i j : Instance} (hi : j.strip = i.strip) (k : Nat) :
    Resembles { r with instances := r.instances.set k i } { s with instances := s.instances.set k j } := by
  refine ⟨h.entries, ?_⟩
  simp only [List.map_set, h.instances, hi]

theorem Resembles.withEntries (h : r.Resembles s) (entries : Table InstanceId) :
    Resembles { r with entries } { s with entries } := ⟨rfl, h.instances⟩

end Registry

end SchemaTyping
