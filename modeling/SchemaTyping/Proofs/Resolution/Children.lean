import SchemaTyping.Proofs.Registry.Names
import SchemaTyping.Proofs.Resolution.Locality

set_option autoImplicit false

/-! # The children of a path

The tree of fields is nowhere written down: `Definition.childKeys` finds the fields directly below a path by
taking the path off the declared ones and cutting what is left at its first point. This gives the children in
the tree, each once and in the order in which anything at or below them is declared first
(`Definition.childKeys_are_children`). -/

namespace SchemaTyping.Definition

open Resolver (bareRuleOf)

variable {d : Definition} {parent wildcard key : String}

theorem foundInOrder_childKeys (d : Definition) (parent wildcard : String) :
    FoundInOrder (Path.keyBelow? parent wildcard) d.rules.names (d.childKeys parent wildcard) := by
  rw [childKeys_eq]
  exact foundInOrder_eraseDups _ _

/-- The place of the first declared path that is this one or lies below it. -/
def placeOf (d : Definition) (path : String) : Nat := d.rules.names.findIdx (Path.atOrBelow path)

theorem firstPlace_keyBelow? (h : key ∈ d.childKeys parent wildcard) :
    firstPlace (Path.keyBelow? parent wildcard) d.rules.names key = d.placeOf (Path.join parent key) := by
  obtain ⟨hkey, hpoint, hwildcard, -⟩ := mem_childKeys_iff.1 h
  have hcounts : ∀ path, decide (Path.keyBelow? parent wildcard path = some key)
      = Path.atOrBelow (Path.join parent key) path := by
    intro path
    rw [Bool.eq_iff_iff, decide_eq_true_iff, Path.keyBelow?_eq_some_iff]
    simp only [ne_eq, hkey, hpoint, hwildcard, not_false_eq_true, true_and]
  simp only [firstPlace, hcounts, placeOf]

/-- **The keys below a path are its children.** They are the texts that can be keys, that is, neither empty
    nor the wildcard and without a point, for which something is declared at the path joined with them or
    below it. Each stands there once, and they are ordered by where the first such path is declared. -/
theorem childKeys_are_children (d : Definition) (parent wildcard : String) :
    (∀ key, key ∈ d.childKeys parent wildcard ↔
      key ≠ "" ∧ '.' ∉ key.toList ∧ key ≠ wildcard ∧
        ∃ path ∈ d.rules.names, Path.atOrBelow (Path.join parent key) path = true) ∧
      (d.childKeys parent wildcard).Nodup ∧
      (d.childKeys parent wildcard).Pairwise fun key later =>
        d.placeOf (Path.join parent key) < d.placeOf (Path.join parent later) := by
  have hfound := d.foundInOrder_childKeys parent wildcard
  refine ⟨fun key => mem_childKeys_iff, hfound.nodup, ?_⟩
  refine hfound.sorted.imp_of_mem fun hkey hlater hplace => ?_
  rwa [firstPlace_keyBelow? hkey, firstPlace_keyBelow? hlater] at hplace

/-- A sibling that starts with the same letters is no child, and neither is the wildcard. -/
example : (ofList
    [("b.x.deep", bareRuleOf (.scalar .number) []), ("bb", bareRuleOf (.scalar .text) []),
     ("b.$", bareRuleOf .object []), ("b.y", bareRuleOf (.scalar .text) []),
     ("b.x", bareRuleOf .object [])]).childKeys "b" "$" = ["x", "y"] := by
  decide +kernel

end SchemaTyping.Definition
