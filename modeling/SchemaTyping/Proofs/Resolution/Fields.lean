import SchemaTyping.Proofs.Registry.Keys
import SchemaTyping.Proofs.Resolution.Typing

set_option autoImplicit false

/-! # Fields by path

`Resolver.resolveField` finds the same type as `Resolver.resolve`, or the same error, and adds the last segment
of the path and the flag of its rule. It cuts the path and joins the parts before it looks the rule up, which
comes back to the path unless the only point of the path stands in front: the field that is found then is the
one without that point (`Resolver.resolveField_of_resolve`). -/

namespace SchemaTyping.Resolver

variable {r : Resolver} {d : Definition} {path : String}

/-- The field under the last segment of a path is that of the path joined again. -/
theorem resolveField_eq_map (r : Resolver) (path : String) (d : Definition) :
    r.resolveField path d = (r.top d (Path.join (Path.parentAndKey path).1 (Path.parentAndKey path).2)).map
      fun found => ⟨(Path.parentAndKey path).2, found.1, found.2⟩ := rfl

/-- What is found at a path comes with the flag of the rule that is declared there. -/
theorem top_of_resolve {t : TypeExpr} (h : r.resolve path d = .ok t) :
    ∃ rule, d.rule? path = some rule ∧ r.top d path = .ok (t, rule.optionality.holds) := by
  obtain ⟨⟨type, optional⟩, htop, rfl⟩ := Outcome.map_eq_ok.1 h
  obtain ⟨rule, hrule, rfl, -⟩ := typeAt_soundBelow _ _ _ _ _ htop
  exact ⟨rule, hrule, htop⟩

/-- **A field is the type at its path, with the last segment as its name and the flag of its rule**, and it
    has no type for the same reason that the path has none. Only a path whose one point stands in front is
    taken for the segment behind it. -/
theorem resolveField_of_resolve (r : Resolver) (path : String) (d : Definition) :
    ∃ key, Path.LastSegment path key ∧
      (¬ Path.LedByPoint path →
        (∀ t, r.resolve path d = .ok t → ∃ rule, d.rule? path = some rule ∧
          r.resolveField path d = .ok ⟨key, t, rule.optionality.holds⟩) ∧
        ∀ e, r.resolve path d = .error e → r.resolveField path d = .error e) ∧
      (Path.LedByPoint path → r.resolveField path d = r.resolveField key d) := by
  have hlast := Path.lastSegment_parentAndKey path
  refine ⟨(Path.parentAndKey path).2, hlast, fun hpath => ?_, fun hpath => ?_⟩
  · have hfield := resolveField_eq_map r path d
    rw [Path.join_parentAndKey hpath] at hfield
    rw [hfield]
    refine ⟨fun t ht => ?_, fun e he => ?_⟩
    · obtain ⟨rule, hrule, htop⟩ := top_of_resolve ht
      exact ⟨rule, hrule, Outcome.map_eq_ok.2 ⟨_, htop, rfl⟩⟩
    · exact Outcome.map_eq_error.2 (Outcome.map_eq_error.1 he)
  · rw [resolveField_eq_map, resolveField_eq_map, Path.join_parentAndKey_of_ledByPoint hpath,
      Path.parentAndKey_of_point_not_mem hlast.1]
    rfl

/-- A definition with a field whose path starts with a point. -/
def hiddenName : Definition where
  rules := [(".name", { candidates := [.scalar .boolean], candidates_ne_nil := List.cons_ne_nil _ _ })]

/-- The path has a type, but there is no field under its last segment. -/
theorem leading_point_is_lost :
    resolve ⟨{}, {}⟩ ".name" hiddenName = .ok (.scalar "boolean") ∧
      resolveField ⟨{}, {}⟩ ".name" hiddenName = .error (.undeclared "name") := by
  constructor <;> rfl

end SchemaTyping.Resolver
