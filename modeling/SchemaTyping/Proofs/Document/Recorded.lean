import SchemaTyping.Proofs.Document.Attributes
import SchemaTyping.Proofs.Document.Lockstep
import SchemaTyping.Proofs.Resolution.Comparison

set_option autoImplicit false

/-! # Recorded attributes shape nothing

Two documents that are the same once they are stripped of what is only recorded are both loaded or both
refused, and nothing that is generated afterwards tells them apart
(`Loader.recorded_attributes_shape_nothing`).

Stripping a document is a `Loader.Correspondence`: a body is read as before, up to constraints, and no step of
loading looks at a constraint. So each of the two documents leaves a registry that resembles the one that the
stripped document leaves, and the resolvers of registries that resemble each other declare the same. -/

namespace SchemaTyping

/-! ## Generating -/

namespace Registry.Resembles

variable {r s : Registry}

theorem comparable (h : r.Resembles s) (o : Options) :
    Resolver.Comparable (fun _ => False) ⟨r, o⟩ ⟨s, o⟩ where
  wildcardSegment := rfl
  scalarNames := rfl
  instances := h.instance?
  references := by
    intro path id
    simp only [Resolver.referenceType, Registry.reference?, h.entries]
    exact .refl _

/-- Constraints have no part in what is generated. -/
theorem generate_eq (h : r.Resembles s) (o : Options) : generate s o = generate r o := by
  have hdeclare := (h.comparable o).declare (fun _ => not_false) rfl rfl
  have haliases : s.aliases = r.aliases := by simp only [Registry.aliases, Registry.groups, h.entries]
  simp only [generate, hdeclare, haliases, h.entries]

end Registry.Resembles

/-! ## Loading -/

/-- A document without what is only recorded in its rules. -/
def Document.strip (overrideKey : String) (d : Document) : Document := d.mapBodies (Body.strip overrideKey)

namespace Loader

/-- Loading documents without what is only recorded in them. -/
def Correspondence.stripped (overrideKey : String) : Correspondence where
  ids := id
  bodies := Body.strip overrideKey
  contents := Instance.strip
  options o p := p = o ∧ o.overrideKeyName = overrideKey
  registries := Registry.Resembles
  refusals := (· = ·)
  overrideKeyName := fun h => by rw [h.1]
  validate := fun h => by rw [h.1]
  aliasTarget? := Body.aliasTarget?_strip overrideKey
  entries := fun h => by rw [Table.mapValues_id, h.entries]
  withEntries := fun h entries => by
    rw [Table.mapValues_id]
    exact h.withEntries entries
  has_iff := fun h => h.has_iff
  reserve := fun h => ⟨h.add_snd _ _, h.add rfl⟩
  set := fun h _ i => h.set i.strip_strip _
  read := fun ho scope hscope place j => by
    have hread := Body.read_strip scope place j
    rw [hscope, ho.2] at hread
    simpa [Scope.rename] using hread.corresponds fun _ => rfl
  refused := fun _ => rfl
  unknown := unknown_id

theorem related_stripped (l : Loader) : Related (.stripped l.options.overrideKeyName) l l where
  options := ⟨rfl, rfl⟩
  registry := .refl _
  instances := (Table.mapValues_id _).symm
  stagedSchemas := (Table.mapValues_id _).symm
  stagedInstances := (Table.mapValues_id _).symm

/-- A stripped document is loaded just as the document is, up to constraints. -/
theorem load_strip (l : Loader) (d : Document) :
    (l.load (d.strip l.options.overrideKeyName)).1 = (l.load d).1 ∧
      ((l.load d).1 = .ok () →
        (l.load d).2.registry.Resembles (l.load (d.strip l.options.overrideKeyName)).2.registry) := by
  obtain ⟨houtcome, hrelated⟩ := ((related_stripped l).load d).of_eq
  exact ⟨houtcome, fun hok => (hrelated () hok).registry⟩

/-- **What is only recorded never influences the output.** Of two documents that only differ in well-typed
    attributes that are recorded or unknown, at any depth, a loader takes both or refuses both, for the same
    reason; and then whatever is generated is the same. -/
theorem recorded_attributes_shape_nothing (l : Loader) {d d' : Document}
    (h : d'.strip l.options.overrideKeyName = d.strip l.options.overrideKeyName) :
    (l.load d').1 = (l.load d).1 ∧
      ((l.load d).1 = .ok () →
        ∀ o, generate (l.load d').2.registry o = generate (l.load d).2.registry o) := by
  obtain ⟨houtcome, hregistry⟩ := load_strip l d
  obtain ⟨houtcome', hregistry'⟩ := load_strip l d'
  rw [h] at houtcome' hregistry'
  have hsame : (l.load d').1 = (l.load d).1 := houtcome'.symm.trans houtcome
  refine ⟨hsame, fun hok o => ?_⟩
  rw [← (hregistry hok).generate_eq o, ← (hregistry' (hsame.trans hok)).generate_eq o]

/-- Two spellings of a product: the attributes beside `type` and `optional` differ, also in the object that is
    written out below `maker`. -/
def plainProduct : Document where
  schemas := [("Product", .object
    [("price", .object [("type", .text "Number"), ("min", .number (.integer 0)), ("note", .boolean true)]),
     ("maker", .object
       [("type", .object [("$schema", .object [("name", .object [("type", .text "String")])])]),
        ("optional", .boolean true)])])]

@[inherit_doc plainProduct]
def annotatedProduct : Document where
  schemas := [("Product", .object
    [("price", .object [("max", .number (.integer 9)), ("type", .text "Number")]),
     ("maker", .object
       [("label", .text "Maker"),
        ("type", .object [("$schema", .object
          [("name", .object [("regex", .text "a"), ("type", .text "String"), ("label", .text "Name")])])]),
        ("defaultValue", .null), ("optional", .boolean true)])])]

theorem products_generate_alike :
    annotatedProduct.strip "typeName" = plainProduct.strip "typeName" ∧
      (load { options := {} } plainProduct).1 = .ok () ∧
      (load { options := {} } annotatedProduct).1 = .ok () ∧
      generate (load { options := {} } annotatedProduct).2.registry {}
        = generate (load { options := {} } plainProduct).2.registry {} := by
  have hstrip : annotatedProduct.strip "typeName" = plainProduct.strip "typeName" := by rfl
  have hload : (load { options := {} } plainProduct).1 = .ok () := by decide +kernel
  obtain ⟨hsame, hgenerate⟩ := recorded_attributes_shape_nothing { options := {} } hstrip
  exact ⟨hstrip, hload, hsame.trans hload, hgenerate hload {}⟩

end Loader

end SchemaTyping
