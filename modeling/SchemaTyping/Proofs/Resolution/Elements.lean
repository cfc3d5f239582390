import SchemaTyping.Proofs.Resolution.Children

set_option autoImplicit false

/-! # Elements of lists

The elements of a list are declared at the path of the list joined with the wildcard. A field may be a list and
an object at once, and then both look below the same path: the list at the whole wildcard, the object at single
segments. These are kept apart as long as the wildcard is a segment itself, or starts with a point: then
neither the element nor anything below it counts for a key, and the object is typed as if they were not
declared.

The options accept every text as the wildcard. With one that goes on behind a segment and a point
(`Path.Compound`), the first segment of the wildcard is a key of the object as soon as the elements of the
list are declared (`Resolver.element_is_no_property`). -/

namespace SchemaTyping

/-! ## Compound wildcards -/

/-- A segment, a point and what follows them. -/
def Path.Compound (path : String) : Prop := firstSegment path.toList ≠ "" ∧ '.' ∈ path.toList

namespace Path

variable {parent wildcard path : String}

theorem firstSegment_toList_eq_self_iff : firstSegment path.toList = path ↔ '.' ∉ path.toList := by
  constructor
  · intro h hpoint
    rw [← h] at hpoint
    exact point_not_mem_firstSegment _ hpoint
  · intro hpoint
    rw [firstSegment_of_point_not_mem hpoint, String.ofList_toList]

/-- Behind the parent, the element and all below it start with the first segment of the wildcard. -/
theorem map_firstSegment_below?_element (h : atOrBelow (join parent wildcard) path = true) :
    (below? parent path).map firstSegment = some (firstSegment wildcard.toList) := by
  rw [Option.map_eq_some_iff]
  rcases atOrBelow_iff.1 h with rfl | ⟨cs, hcs⟩
  · exact ⟨wildcard.toList, below?_eq_some_iff.2 (by rw [String.ofList_toList]), rfl⟩
  · refine ⟨wildcard.toList ++ '.' :: cs, below?_eq_some_iff.2 ?_, firstSegment_append _ _⟩
    rw [← String.toList_inj, hcs]
    by_cases hparent : parent = ""
    · subst hparent
      simp [join]
    · simp [toList_join hparent]

theorem keyBelow?_element (hwildcard : ¬ Compound wildcard)
    (h : atOrBelow (join parent wildcard) path = true) : keyBelow? parent wildcard path = none := by
  rw [keyBelow?, map_firstSegment_below?_element h, Option.filter_some, if_neg]
  intro hkept
  simp only [Bool.and_eq_true, Bool.not_eq_true', String.isEmpty_eq_false_iff, bne_iff_ne] at hkept
  refine hwildcard ⟨hkept.1, ?_⟩
  by_contra hpoint
  exact hkept.2 (firstSegment_toList_eq_self_iff.2 hpoint)

theorem keyBelow?_element_of_compound (hwildcard : Compound wildcard)
    (h : atOrBelow (join parent wildcard) path = true) :
    keyBelow? parent wildcard path = some (firstSegment wildcard.toList) := by
  have hne : firstSegment wildcard.toList ≠ wildcard := fun heq =>
    firstSegment_toList_eq_self_iff.1 heq hwildcard.2
  rw [keyBelow?, map_firstSegment_below?_element h, Option.filter_some, if_pos]
  simp [hwildcard.1, hne]

end Path

/-! ## Leaving the elements out -/

namespace Definition

/-- The rules that are neither at a path nor below it. -/
def outside (d : Definition) (path : String) : Definition where
  rules := d.rules.filter fun entry => !Path.atOrBelow path entry.1

variable {d : Definition} {parent wildcard key : String}

theorem childKeys_part_element (hwildcard : ¬ Path.Compound wildcard) (d : Definition) (parent : String) :
    (d.part (Path.join parent wildcard)).childKeys parent wildcard = [] := by
  refine List.eq_nil_iff_forall_not_mem.2 fun key hkey => ?_
  obtain ⟨path, hpath, hcounts⟩ := (foundInOrder_childKeys _ _ _).mem key |>.1 hkey
  obtain ⟨entry, hentry, rfl⟩ := List.mem_map.1 hpath
  rw [Path.keyBelow?_element hwildcard (List.mem_filter.1 hentry).2] at hcounts
  cases hcounts

theorem childKeys_outside_element (hwildcard : ¬ Path.Compound wildcard) (d : Definition)
    (parent : String) :
    (d.outside (Path.join parent wildcard)).childKeys parent wildcard = d.childKeys parent wildcard := by
  simp only [childKeys_eq, outside, Table.names, List.filterMap_map, List.filterMap_filter]
  refine congrArg List.eraseDups (List.filterMap_congr fun entry _ => ?_)
  by_cases hentry : Path.atOrBelow (Path.join parent wildcard) entry.1 = true
  · simp [hentry, Path.keyBelow?_element hwildcard hentry]
  · simp [hentry]

/-- What lies at or below a child lies outside the element. -/
theorem atOrBelow_element_of_child (hwildcard : ¬ Path.Compound wildcard)
    (hkey : key ∈ d.childKeys parent wildcard) {path : String}
    (hchild : Path.atOrBelow (Path.join parent key) path = true) :
    Path.atOrBelow (Path.join parent wildcard) path = false := by
  obtain ⟨hkey, hpoint, hne, -⟩ := mem_childKeys_iff.1 hkey
  -- the path counts for the child, so it is none of those that count for no key
  have hcounts := Path.keyBelow?_eq_some_iff.2 ⟨hkey, hpoint, hne, hchild⟩
  by_contra helement
  rw [Path.keyBelow?_element hwildcard (Bool.of_not_eq_false helement)] at hcounts
  cases hcounts

/-- The element lies neither at a child nor below it. -/
theorem atOrBelow_child_element (hwildcard : ¬ Path.Compound wildcard)
    (hkey : key ∈ d.childKeys parent wildcard) :
    Path.atOrBelow (Path.join parent key) (Path.join parent wildcard) = false := by
  by_contra hchild
  have houtside := atOrBelow_element_of_child hwildcard hkey (Bool.of_not_eq_false hchild)
  rw [Path.atOrBelow_self] at houtside
  cases houtside

/-- Children keep all their rules when the element is left out. -/
theorem part_outside_element (hwildcard : ¬ Path.Compound wildcard)
    (hkey : key ∈ d.childKeys parent wildcard) :
    (d.outside (Path.join parent wildcard)).part (Path.join parent key) = d.part (Path.join parent key) := by
  simp only [part, outside, List.filter_filter, Definition.mk.injEq]
  refine List.filter_congr fun entry _ => ?_
  cases hchild : Path.atOrBelow (Path.join parent key) entry.1 with
  | false => rfl
  | true =>
      rw [atOrBelow_element_of_child hwildcard hkey hchild]
      rfl

end Definition

namespace Resolver

variable {r : Resolver}

/-- Where the elements of the list at a path are declared. -/
def elementPath (r : Resolver) (path : String) : String := Path.join path r.options.wildcardSegment

/-- The object at a path is typed as if the elements of the list there were not declared. -/
theorem candidateType_outside_element (hwildcard : ¬ Path.Compound r.options.wildcardSegment)
    (d : Definition) (path : String) (levels : Nat) :
    r.candidateType (r.typeAt levels) (d.outside (r.elementPath path)) path .object
      = r.candidateType (r.typeAt levels) d path .object := by
  have hchild : ∀ key ∈ d.childKeys path r.options.wildcardSegment,
      r.typeAt levels (d.outside (r.elementPath path)) (Path.join path key)
        = r.typeAt levels d (Path.join path key) := by
    intro key hkey
    have hjoin : Path.join path key ≠ "" := Path.join_ne_empty (Definition.mem_childKeys_iff.1 hkey).1
    have hself := Path.atOrBelow_self (Path.join path key)
    rw [← r.typeAt_part hjoin levels _ hself, elementPath, Definition.part_outside_element hwildcard hkey,
      r.typeAt_part hjoin levels _ hself]
  simp only [candidateType, fieldsBelow]
  rw [elementPath, Definition.childKeys_outside_element hwildcard,
    Outcome.mapM_congr fun key hkey => by rw [← elementPath, hchild key hkey]]

/-- **An element is no property, unless the wildcard is compound.** With any other wildcard, neither the
    element of the list at a path nor anything below it counts for a key of the object there, no property of
    that object is the element or lies above it, and the object has the type, or the refusal, that it has
    without the element. With a compound wildcard its first segment is such a key. -/
theorem element_is_no_property (r : Resolver) (d : Definition) (path : String) :
    (¬ Path.Compound r.options.wildcardSegment →
      (d.part (r.elementPath path)).childKeys path r.options.wildcardSegment = [] ∧
        (d.outside (r.elementPath path)).childKeys path r.options.wildcardSegment
          = d.childKeys path r.options.wildcardSegment ∧
        (∀ key ∈ d.childKeys path r.options.wildcardSegment,
          Path.atOrBelow (Path.join path key) (r.elementPath path) = false) ∧
        ∀ levels, r.candidateType (r.typeAt levels) (d.outside (r.elementPath path)) path .object
          = r.candidateType (r.typeAt levels) d path .object) ∧
      (Path.Compound r.options.wildcardSegment → (d.part (r.elementPath path)).rules ≠ [] →
        Path.firstSegment r.options.wildcardSegment.toList
          ∈ d.childKeys path r.options.wildcardSegment) := by
  refine ⟨fun hwildcard => ⟨Definition.childKeys_part_element hwildcard d path,
    Definition.childKeys_outside_element hwildcard d path,
    fun _ hkey => Definition.atOrBelow_child_element hwildcard hkey,
    candidateType_outside_element hwildcard d path⟩, fun hwildcard hpart => ?_⟩
  obtain ⟨entry, hentry⟩ := List.exists_mem_of_ne_nil _ hpart
  obtain ⟨hdeclared, helement⟩ := List.mem_filter.1 hentry
  exact ((d.foundInOrder_childKeys _ _).mem _).2 ⟨entry.1, List.mem_map.2 ⟨entry, hdeclared, rfl⟩,
    Path.keyBelow?_element_of_compound hwildcard helement⟩

/-- Options with a wildcard of two segments. -/
def nestedItems : Options := { wildcardSegment := "items.each" }

/-- A field that is a list of texts or an object of which nothing is declared. -/
def tagList : Definition where
  rules :=
    [("tags", bareRuleOf .array [.object]),
     ("tags.items.each", bareRuleOf (.scalar .text) [])]

/-- The options are accepted, but the element is taken for a property of the object: the field `items` is
    looked for, and refused. -/
theorem compound_wildcard_is_exposed :
    nestedItems.validate = .ok () ∧ elementPath ⟨{}, nestedItems⟩ "tags" = "tags.items.each" ∧
      (tagList.part "tags.items.each").childKeys "tags" nestedItems.wildcardSegment = ["items"] ∧
      tagList.childKeys "tags" nestedItems.wildcardSegment = ["items"] ∧
      resolve ⟨{}, nestedItems⟩ "tags" tagList = .error (.undeclared "tags.items") := by
  refine ⟨by decide +kernel, by decide +kernel, by decide +kernel, by decide +kernel, rfl⟩

end Resolver

end SchemaTyping
