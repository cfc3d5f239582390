import SchemaTyping.Proofs.Grammar.Bars
import SchemaTyping.Proofs.Registry.Keys
import SchemaTyping.Proofs.Resolution.Typing

set_option autoImplicit false

/-! # Resolved types are in normal form

A type is in normal form if none of its nodes could be written more simply: unions have several arms and no
union among them, objects have fields, whose names are distinct single segments, and no literal stands twice in
a choice (`TypeExpr.IsNormal`). Every type that the rules derive is, by induction on the derivation, so every
type that is resolved is. A union of one arm does not occur in it, so `TypeExpr.isAlternation` is right about all
its parts. -/

namespace SchemaTyping

namespace TypeExpr

/-! ## Parts of a type -/

/-- The first type is the second or stands somewhere in it. -/
inductive Within (s : TypeExpr) : TypeExpr → Prop where
  | self : Within s s
  | item {item : TypeExpr} (h : Within s item) : Within s (.array item)
  | field {fields : List (Field TypeExpr)} {field : Field TypeExpr} (hfield : field ∈ fields)
      (h : Within s field.type) : Within s (.object fields)
  | arm {arms : List TypeExpr} {arm : TypeExpr} (harm : arm ∈ arms) (h : Within s arm) :
      Within s (.union arms)

theorem Within.trans {s t u : TypeExpr} (hs : s.Within t) (ht : t.Within u) : s.Within u := by
  induction ht with
  | self => exact hs
  | item _ ih => exact .item ih
  | field hfield _ ih => exact .field hfield ih
  | arm harm _ ih => exact .arm harm ih

theorem WellNamed.within {s t : TypeExpr} (h : t.WellNamed) (hs : s.Within t) : s.WellNamed := by
  induction hs with
  | self => exact h
  | item _ ih =>
      cases h with
      | array hitem => exact ih hitem
  | field hfield _ ih =>
      cases h with
      | object hfields => exact ih (hfields _ hfield)
  | arm harm _ ih =>
      cases h with
      | union harms => exact ih (harms _ harm)

/-! ## Normal forms -/

/-- Is the type a union? -/
def IsUnion (t : TypeExpr) : Prop := ∃ arms, t = .union arms

/-- The outermost node of the type is in normal form. -/
def IsNormal (wildcard : String) : TypeExpr → Prop
  | .union arms => 2 ≤ arms.length ∧ ∀ arm ∈ arms, ¬ arm.IsUnion
  | .object fields => fields ≠ [] ∧ (fields.map (·.name)).Nodup ∧
      ∀ field ∈ fields, field.name ≠ "" ∧ '.' ∉ field.name.toList ∧ field.name ≠ wildcard
  | .literals values => values.Nodup
  | _ => True

/-- All nodes of the type are in normal form. -/
def AllNormal (wildcard : String) (t : TypeExpr) : Prop :=
  ∀ s : TypeExpr, s.Within t → s.IsNormal wildcard

variable {wildcard : String}

/-- Does the type have no part but itself? -/
def IsLeaf : TypeExpr → Prop
  | .array _ | .object _ | .union _ => False
  | _ => True

theorem allNormal_of_isLeaf {t : TypeExpr} (hleaf : t.IsLeaf) (h : t.IsNormal wildcard) :
    t.AllNormal wildcard := by
  intro s hs
  cases hs with
  | self => exact h
  | item _ => exact hleaf.elim
  | field _ _ => exact hleaf.elim
  | arm _ _ => exact hleaf.elim

theorem AllNormal.array {item : TypeExpr} (h : item.AllNormal wildcard) :
    (TypeExpr.array item).AllNormal wildcard := by
  intro s hs
  cases hs with
  | self => exact trivial
  | item hs => exact h s hs

theorem AllNormal.object {fields : List (Field TypeExpr)} (hnode : (TypeExpr.object fields).IsNormal wildcard)
    (h : ∀ field ∈ fields, field.type.AllNormal wildcard) : (TypeExpr.object fields).AllNormal wildcard := by
  intro s hs
  cases hs with
  | self => exact hnode
  | field hfield hs => exact h _ hfield s hs

theorem AllNormal.union {arms : List TypeExpr} (hnode : (TypeExpr.union arms).IsNormal wildcard)
    (h : ∀ arm ∈ arms, arm.AllNormal wildcard) : (TypeExpr.union arms).AllNormal wildcard := by
  intro s hs
  cases hs with
  | self => exact hnode
  | arm harm hs => exact h _ harm s hs

/-- A type in normal form hides no bar: there is no union of one arm in it. -/
theorem AllNormal.not_hidesBar {t : TypeExpr} (h : t.AllNormal wildcard) : ¬ t.HidesBar := by
  have hone (arm : TypeExpr) : ¬ (TypeExpr.union [arm]).IsNormal wildcard := fun hnode => by
    have := hnode.1
    simp at this
  intro hhides
  induction hhides with
  | arm _ => exact hone _ (h _ .self)
  | nested _ _ => exact hone _ (h _ .self)
  | item _ ih => exact ih fun s hs => h s (.item hs)

end TypeExpr

/-! ## Derived types -/

section

variable {r : Resolver} {d : Definition}

/-- An object with the fields below a path is in normal form. -/
theorem FieldTypings.isNormal {parent : String} {fields : List (Field TypeExpr)} (inhabited : fields ≠ [])
    (δ : FieldTypings r d parent (d.childKeys parent r.options.wildcardSegment) fields) :
    (TypeExpr.object fields).IsNormal r.options.wildcardSegment := by
  have hnames := δ.names
  refine ⟨inhabited, ?_, fun field hfield => ?_⟩
  · rw [hnames]
    exact nodup_eraseDups _
  · have hkey : field.name ∈ d.childKeys parent r.options.wildcardSegment :=
      hnames ▸ List.mem_map_of_mem hfield
    obtain ⟨hempty, hwildcard, hpoint⟩ := Definition.mem_childKeys hkey
    exact ⟨hempty, hpoint, hwildcard⟩

theorem CandidateTyping.not_isUnion {path : String} {candidate : Candidate} {t : TypeExpr}
    (δ : CandidateTyping r d path candidate t) : ¬ t.IsUnion := by
  rintro ⟨arms, rfl⟩
  cases δ

mutual

/-- **Every type that the rules derive is in normal form.** -/
theorem Typing.allNormal {d : Definition} {path : String} {t : TypeExpr} :
    Typing r d path t → t.AllNormal r.options.wildcardSegment
  | .named _ _ => TypeExpr.allNormal_of_isLeaf trivial trivial
  | .single _ _ arms => (arms.allNormal _ List.mem_cons_self).1
  | .several _ _ many typed =>
      .union ⟨many, fun arm harm => (typed.allNormal arm harm).2⟩ fun arm harm => (typed.allNormal arm harm).1

@[inherit_doc Typing.allNormal]
theorem ArmTypings.allNormal {d : Definition} {path : String} {candidates : List Candidate}
    {arms : List TypeExpr} : ArmTypings r d path candidates arms →
      ∀ arm ∈ arms, arm.AllNormal r.options.wildcardSegment ∧ ¬ arm.IsUnion
  | .nil => fun _ h => absurd h List.not_mem_nil
  | .cons first others => List.forall_mem_cons.2 ⟨⟨first.allNormal, first.not_isUnion⟩, others.allNormal⟩

@[inherit_doc Typing.allNormal]
theorem CandidateTyping.allNormal {d : Definition} {path : String} {candidate : Candidate} {t : TypeExpr} :
    CandidateTyping r d path candidate t → t.AllNormal r.options.wildcardSegment
  | .scalar _ => TypeExpr.allNormal_of_isLeaf trivial trivial
  | .array element => element.allNormal.array
  | .object inhabited typed => .object (typed.isNormal inhabited) typed.allNormal
  | .opaqueObject _ => TypeExpr.allNormal_of_isLeaf trivial trivial
  | .reference _ _ => TypeExpr.allNormal_of_isLeaf trivial trivial
  | .inline _ _ inhabited typed => .object (typed.isNormal inhabited) typed.allNormal
  | .opaqueInline _ _ _ => TypeExpr.allNormal_of_isLeaf trivial trivial
  | .values _ _ => TypeExpr.allNormal_of_isLeaf trivial (nodup_eraseDups _)

@[inherit_doc Typing.allNormal]
theorem FieldTypings.allNormal {d : Definition} {parent : String} {keys : List String}
    {fields : List (Field TypeExpr)} : FieldTypings r d parent keys fields →
      ∀ field ∈ fields, field.type.AllNormal r.options.wildcardSegment
  | .nil => fun _ h => absurd h List.not_mem_nil
  | .cons _ typed others => List.forall_mem_cons.2 ⟨typed.allNormal, others.allNormal⟩

end

end

namespace Resolver

variable {r : Resolver} {d : Definition} {path : String} {t : TypeExpr}

/-- **A resolved type is in normal form at every part**, and where the names are identifiers the text of a part
    shows a bar exactly if the part is an alternation. -/
theorem resolve_allNormal (h : r.resolve path d = .ok t) :
    (∀ s : TypeExpr, s.Within t → s.IsNormal r.options.wildcardSegment) ∧
      (t.WellNamed → isIdentifier r.options.objectName.toList = true → ∀ s : TypeExpr, s.Within t →
        (s.isAlternation = true ↔ Grammar.ShowsBar (s.chars r.options.objectName))) := by
  obtain ⟨δ, -⟩ := exists_typing_of_resolve h
  have hnormal := δ.allNormal
  refine ⟨hnormal, fun hnamed hobject s hs => ?_⟩
  have hhides : ¬ s.HidesBar := TypeExpr.AllNormal.not_hidesBar fun s' hs' => hnormal s' (hs'.trans hs)
  rw [(hnamed.within hs).showsBar_iff hobject, or_iff_left hhides]

/-- A list of names and of some fixed texts, one of which is listed twice, or an anonymous object. -/
def labels : Definition where
  rules :=
    [("labels", { candidates := [.array, .nested ⟨0⟩], candidates_ne_nil := List.cons_ne_nil _ _ }),
     ("labels.$", { candidates := [.scalar .text, .nested ⟨1⟩], candidates_ne_nil := List.cons_ne_nil _ _ })]

@[inherit_doc labels]
def labelsRegistry : Registry where
  instances :=
    [.schema { rules :=
      [("first.given", { candidates := [.scalar .dateTime], candidates_ne_nil := List.cons_ne_nil _ _ }),
       ("first", { candidates := [.object], candidates_ne_nil := List.cons_ne_nil _ _ })] },
     .values [.literal (.text "a | b"), .literal .null, .literal (.text "a | b")]]

@[inherit_doc labels]
def labelsType : TypeExpr :=
  .union [.array (.union [.scalar "string", .literals [.text "a | b", .null]]),
    .object [⟨"first", .object [⟨"given", .scalar "Date", false⟩], false⟩]]

theorem resolve_labels_allNormal : resolve ⟨labelsRegistry, {}⟩ "labels" labels = .ok labelsType ∧
    (∀ s : TypeExpr, s.Within labelsType → s.IsNormal "$") ∧
      (labelsType.WellNamed ∧ isIdentifier "Object".toList = true ∧ ∀ s : TypeExpr, s.Within labelsType →
        (s.isAlternation = true ↔ Grammar.ShowsBar (s.chars "Object"))) := by
  have hresolve : resolve ⟨labelsRegistry, {}⟩ "labels" labels = .ok labelsType := rfl
  have hnamed : labelsType.WellNamed := by
    have hitem : (TypeExpr.union [.scalar "string", .literals [.text "a | b", .null]]).WellNamed :=
      .union (List.forall_mem_cons.2 ⟨.scalar (by decide), List.forall_mem_singleton.2 (.literals _)⟩)
    have hfirst : (TypeExpr.object [⟨"given", .scalar "Date", false⟩]).WellNamed :=
      .object (List.forall_mem_singleton.2 (.scalar (by decide)))
    exact .union (List.forall_mem_cons.2
      ⟨.array hitem, List.forall_mem_singleton.2 (.object (List.forall_mem_singleton.2 hfirst))⟩)
  obtain ⟨hnormal, hbars⟩ := resolve_allNormal hresolve
  exact ⟨hresolve, hnormal, hnamed, by decide, hbars hnamed (by decide)⟩

end Resolver

end SchemaTyping
