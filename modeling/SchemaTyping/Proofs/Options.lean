import Mathlib.Data.List.Perm.Subperm
import SchemaTyping.Options
import SchemaTyping.Proofs.Json.Layout
import SchemaTyping.Proofs.Outcome

set_option autoImplicit false

/-! # Options from some of their members

Options are the members of a JSON object. A text with some of these members, and some of the names of
scalars, is read as the defaults with those members replaced, whatever the order and the layout
(`Options.ofText_members`). So a text with all members gives the options back, and what is wrong with them
is found again. -/

namespace SchemaTyping

open Json (Laid Assigns)

/-! ## Replacing members -/

/-- The names of `base`, of which those with these keys are replaced. -/
def ScalarNames.overlay (names : ScalarNames) (keys : List String) (base : ScalarNames) : ScalarNames where
  number := if "number" ∈ keys then names.number else base.number
  integer := if "integer" ∈ keys then names.integer else base.integer
  text := if "text" ∈ keys then names.text else base.text
  boolean := if "boolean" ∈ keys then names.boolean else base.boolean
  dateTime := if "dateTime" ∈ keys then names.dateTime else base.dateTime

/-- The options of `base`, of which the members with these keys are replaced. If the names of scalars are,
    then those without a key in `nameKeys` are the default ones. -/
def Options.overlay (o : Options) (nameKeys keys : List String) (base : Options) : Options where
  overrideKeyName := if "overrideKeyName" ∈ keys then o.overrideKeyName else base.overrideKeyName
  wildcardSegment := if "wildcardSegment" ∈ keys then o.wildcardSegment else base.wildcardSegment
  scalarNames := if "scalarNames" ∈ keys then o.scalarNames.overlay nameKeys {} else base.scalarNames
  objectName := if "opaqueName" ∈ keys then o.objectName else base.objectName
  missingFields := if "missingFieldPolicy" ∈ keys then o.missingFields else base.missingFields
  references := if "referencePolicy" ∈ keys then o.references else base.references
  maxDepth := if "maxDepth" ∈ keys then o.maxDepth else base.maxDepth
  header := if "header" ∈ keys then o.header else base.header

/-- Replacing twice is replacing once. -/
theorem ite_mem_append {α : Type} (key : String) (keys keys' : List String) (x y : α) :
    (if key ∈ keys' then x else if key ∈ keys then x else y) = if key ∈ keys ++ keys' then x else y := by
  simp only [List.mem_append]
  by_cases h : key ∈ keys <;> by_cases h' : key ∈ keys' <;> simp [h, h']

/-- Replacing members one after the other is replacing them all. -/
theorem foldl_overlay {σ : Type} {overlay : List String → σ → σ} (hnil : ∀ s, overlay [] s = s)
    (happend : ∀ keys keys' s, overlay keys' (overlay keys s) = overlay (keys ++ keys') s)
    (keys : List String) (s : σ) : keys.foldl (fun s key => overlay [key] s) s = overlay keys s := by
  induction keys generalizing s with
  | nil => exact (hnil s).symm
  | cons key keys ih =>
      rw [List.foldl_cons, ih, happend]
      rfl

theorem nodup_names_of_subperm {members all : Json.Members} (h : members.Subperm all)
    (hall : (Table.names all).Nodup) : (Table.names members).Nodup := by
  obtain ⟨chosen, hperm, hsub⟩ := h
  have hchosen : (Table.names chosen).Nodup := hall.sublist (hsub.map _)
  exact (hperm.map _).nodup_iff.1 hchosen

namespace ScalarNames

variable {names : ScalarNames}

theorem overlay_nil (base : ScalarNames) : names.overlay [] base = base := by
  simp [overlay]

theorem overlay_overlay (keys keys' : List String) (base : ScalarNames) :
    names.overlay keys' (names.overlay keys base) = names.overlay (keys ++ keys') base := by
  simp only [overlay, ite_mem_append]

theorem overlay_all {keys : List String} (h : ∀ key ∈ fieldNames, key ∈ keys) (base : ScalarNames) :
    names.overlay keys base = names := by
  simp only [fieldNames, List.forall_mem_cons] at h
  simp [overlay, h]

/-- However the value of a member is laid out, its reader replaces the member. -/
theorem assigns_members (names : ScalarNames) : ∀ member ∈ names.members,
    member.1 ∈ fieldNames ∧ Assigns readField (fun s key => names.overlay [key] s) member := by
  simp only [members, List.forall_mem_cons]
  refine ⟨⟨by decide, ?_⟩, ⟨by decide, ?_⟩, ⟨by decide, ?_⟩, ⟨by decide, ?_⟩, ⟨by decide, ?_⟩, by simp⟩
  · exact Json.assigns_text (fun s t => { s with number := t }) (fun _ => rfl) fun _ => by simp [overlay]
  · exact Json.assigns_text (fun s t => { s with integer := t }) (fun _ => rfl) fun _ => by simp [overlay]
  · exact Json.assigns_text (fun s t => { s with text := t }) (fun _ => rfl) fun _ => by simp [overlay]
  · exact Json.assigns_text (fun s t => { s with boolean := t }) (fun _ => rfl) fun _ => by simp [overlay]
  · exact Json.assigns_text (fun s t => { s with dateTime := t }) (fun _ => rfl) fun _ => by simp [overlay]

theorem reader_of_laid {members : Json.Members} (h : members.Subperm names.members) {cs rest : List Char}
    (hlaid : Laid (.object members) cs rest) :
    reader cs = .ok (names.overlay (Table.names members) {}, rest) := by
  have hdistinct : (Table.names names.members).Nodup := by
    show fieldNames.Nodup
    decide
  rw [← foldl_overlay overlay_nil overlay_overlay]
  exact Json.recordReader_of_laid (fun member hmember => names.assigns_members member (h.subset hmember))
    (nodup_names_of_subperm h hdistinct) hlaid _ _

end ScalarNames

namespace Options

variable {o : Options} {nameKeys : List String}

theorem overlay_nil (base : Options) : o.overlay nameKeys [] base = base := by
  simp [overlay]

theorem overlay_overlay (keys keys' : List String) (base : Options) :
    o.overlay nameKeys keys' (o.overlay nameKeys keys base) = o.overlay nameKeys (keys ++ keys') base := by
  simp only [overlay, ite_mem_append]

theorem overlay_all {keys : List String} (h : ∀ key ∈ fieldNames, key ∈ keys)
    (hnames : ∀ key ∈ ScalarNames.fieldNames, key ∈ nameKeys) (base : Options) :
    o.overlay nameKeys keys base = o := by
  simp only [fieldNames, List.forall_mem_cons] at h
  simp [overlay, h, ScalarNames.overlay_all hnames]

end Options

/-! ## Reading -/

theorem MissingFieldPolicy.get?_name (p : MissingFieldPolicy) : choices.get? p.name = some p := by
  cases p <;> rfl

theorem ReferencePolicy.get?_name (p : ReferencePolicy) : choices.get? p.name = some p := by
  cases p <;> rfl

namespace Options

/-- The members of the options with only some of the names of scalars. -/
def membersWith (o : Options) (names : Json.Members) : Json.Members :=
  o.members.insert "scalarNames" (.object names)

/-- However the value of a member is laid out, its reader replaces the member. -/
theorem assigns_members (o : Options) (hdepth : o.maxDepth < 1 <<< 64) {names : Json.Members}
    (hnames : names.Subperm o.scalarNames.members) : ∀ member ∈ o.membersWith names,
      member.1 ∈ fieldNames ∧
        Assigns readField (fun s key => o.overlay (Table.names names) [key] s) member := by
  simp only [membersWith, members, Table.insert, String.reduceEq, if_false, if_true,
    List.forall_mem_cons]
  refine ⟨⟨by decide, ?_⟩, ⟨by decide, ?_⟩, ⟨by decide, ?_⟩, ⟨by decide, ?_⟩, ⟨by decide, ?_⟩,
    ⟨by decide, ?_⟩, ⟨by decide, ?_⟩, ⟨by decide, ?_⟩, by simp⟩
  · exact Json.assigns_text (fun s t => { s with overrideKeyName := t }) (fun _ => rfl)
      fun _ => by simp [overlay]
  · exact Json.assigns_text (fun s t => { s with wildcardSegment := t }) (fun _ => rfl)
      fun _ => by simp [overlay]
  · exact Json.assigns_of_reads (fun s n => { s with scalarNames := n }) (fun _ => rfl)
      (fun _ _ h _ => ScalarNames.reader_of_laid hnames h) fun _ => by simp [overlay]
  · exact Json.assigns_text (fun s t => { s with objectName := t }) (fun _ => rfl)
      fun _ => by simp [overlay]
  · exact Json.assigns_of_reads (fun s p => { s with missingFields := p }) (fun _ => rfl)
      (fun _ _ h _ => Json.choiceReader_of_laid h o.missingFields.get?_name) fun _ => by simp [overlay]
  · exact Json.assigns_of_reads (fun s p => { s with references := p }) (fun _ => rfl)
      (fun _ _ h _ => Json.choiceReader_of_laid h o.references.get?_name) fun _ => by simp [overlay]
  · exact Json.assigns_of_reads (fun s n => { s with maxDepth := n }) (fun _ => rfl)
      (fun _ _ h hrest => Json.countReader_of_laid h hdepth hrest) fun _ => by simp [overlay]
  · exact Json.assigns_of_reads (fun s b => { s with header := b }) (fun _ => rfl)
      (fun _ _ h _ => Json.boolReader_of_laid h) fun _ => by simp [overlay]

theorem names_membersWith (o : Options) (names : Json.Members) :
    Table.names (o.membersWith names) = fieldNames := by
  simp only [membersWith, Table.names_insert]
  rfl

/-- Whatever is left out, and however the rest is ordered and laid out, the defaults are replaced by what is
    there. -/
theorem ofTextUnchecked_of_laid (o : Options) (hdepth : o.maxDepth < 1 <<< 64) {members names : Json.Members}
    (hmembers : members.Subperm (o.membersWith names)) (hnames : names.Subperm o.scalarNames.members)
    {text : String} {rest : List Char} (hlaid : Laid (.object members) text.toList rest) :
    ofTextUnchecked text = .ok (o.overlay (Table.names names) (Table.names members) {}) := by
  have hdistinct : (Table.names (o.membersWith names)).Nodup := by
    rw [names_membersWith]
    decide
  have hread : reader text.toList
      = .ok (o.overlay (Table.names names) (Table.names members) {}, rest) := by
    rw [← foldl_overlay overlay_nil overlay_overlay]
    exact Json.recordReader_of_laid
      (fun member hmember => o.assigns_members hdepth hnames member (hmembers.subset hmember))
      (nodup_names_of_subperm hmembers hdistinct) hlaid _ _
  simp only [ofTextUnchecked, StateT.run, hread]

/-! ## Validation -/

theorem validate_eq_ok_iff {o : Options} :
    o.validate = .ok () ↔ o.maxDepth ≤ maxDepthBound ∧ isReservedKey o.overrideKeyName = false := by
  unfold validate
  split
  · next hdepth => simp [Nat.not_le.2 hdepth]
  · next hdepth =>
      split
      · next hkey => simp [hkey]
      · next hkey => simp [Nat.not_lt.1 hdepth, hkey]

/-- A check of the options is a check of two members, each for itself. -/
theorem validate_overlay {o base : Options} (h : o.validate = .ok ()) (hbase : base.validate = .ok ())
    (nameKeys keys : List String) : (o.overlay nameKeys keys base).validate = .ok () := by
  obtain ⟨hdepth, hkey⟩ := validate_eq_ok_iff.1 h
  obtain ⟨hbaseDepth, hbaseKey⟩ := validate_eq_ok_iff.1 hbase
  refine validate_eq_ok_iff.2 ⟨?_, ?_⟩
  · simp only [overlay]
    split
    · exact hdepth
    · exact hbaseDepth
  · simp only [overlay]
    split
    · exact hkey
    · exact hbaseKey

/-! ## Overlays -/

/-- Some of the members of the options, with some of the names of scalars, both in any order. -/
structure IsPart (o : Options) (members names : Json.Members) : Prop where
  members : members.Subperm (o.membersWith names)
  names : names.Subperm o.scalarNames.members

/-- All of the members of the options, with all of the names of scalars, both in any order. -/
structure IsWhole (o : Options) (members names : Json.Members) : Prop where
  members : members.Perm (o.membersWith names)
  names : names.Perm o.scalarNames.members

theorem IsWhole.isPart {o : Options} {members names : Json.Members} (h : o.IsWhole members names) :
    o.IsPart members names := ⟨h.members.subperm, h.names.subperm⟩

/-- With all members nothing is left of the defaults. -/
theorem IsWhole.overlay_eq {o : Options} {members names : Json.Members} (h : o.IsWhole members names)
    (base : Options) : o.overlay (Table.names names) (Table.names members) base = o := by
  have hkeys : (Table.names members).Perm fieldNames := by
    rw [← names_membersWith o names]
    exact h.members.map _
  have hnameKeys : (Table.names names).Perm ScalarNames.fieldNames := h.names.map _
  exact overlay_all (fun _ => hkeys.mem_iff.2) (fun _ => hnameKeys.mem_iff.2) base

/-- **Options overlay the defaults**, in every order and layout, that of `Json.compact` among them. Valid
    options are read from some of their members as the defaults with those replaced, and from all of them as
    they are; from all members of others comes the error that they have, as long as the depth is a count of
    64 bits. -/
theorem ofText_members (o : Options) {members names : Json.Members} {text : String} {rest : List Char}
    (hlaid : Laid (.object members) text.toList rest) :
    (o.validate = .ok () → o.IsPart members names →
      ofText text = .ok (o.overlay (Table.names names) (Table.names members) {})) ∧
    (o.validate = .ok () → o.IsWhole members names → ofText text = .ok o) ∧
    ∀ e, o.validate = .error e → o.maxDepth < 1 <<< 64 → o.IsWhole members names →
      ofText text = .error e := by
  have hread (hdepth : o.maxDepth < 1 <<< 64) (hpart : o.IsPart members names) :
      ofTextUnchecked text = .ok (o.overlay (Table.names names) (Table.names members) {}) :=
    ofTextUnchecked_of_laid o hdepth hpart.members hpart.names hlaid
  have hdefault : validate {} = .ok () := by decide +kernel
  have hoverlay (hvalid : o.validate = .ok ()) (hpart : o.IsPart members names) :
      ofText text = .ok (o.overlay (Table.names names) (Table.names members) {}) := by
    have hdepth : o.maxDepth < 1 <<< 64 :=
      Nat.lt_of_le_of_lt (validate_eq_ok_iff.1 hvalid).1 (by decide)
    rw [ofText, hread hdepth hpart, Outcome.ok_bind, validate_overlay hvalid hdefault]
    rfl
  refine ⟨hoverlay, ?_, ?_⟩
  · intro hvalid hwhole
    rw [hoverlay hvalid hwhole.isPart, hwhole.overlay_eq]
  · intro e he hdepth hwhole
    rw [ofText, hread hdepth hwhole.isPart, Outcome.ok_bind, hwhole.overlay_eq, he]
    rfl

/-- Options for a first look at a document: what has no type is left out, and dates stay texts. -/
def lenient : Options := { missingFields := .skip, scalarNames := { dateTime := "string" } }

/-- The options from the two members that they change, and from all; and options that are too deep. -/
theorem ofText_lenient :
    ofText (Json.compact (.object [("missingFieldPolicy", .text "skip"),
      ("scalarNames", .object [("dateTime", .text "string")])])) = .ok lenient ∧
    ofText (Json.compact (.object lenient.members)) = .ok lenient ∧
    ofText (Json.compact (.object (members { lenient with maxDepth := 513 })))
      = .error (.invalid "maxDepth" (.depthTooLarge 513)) := by
  have hvalid : lenient.validate = .ok () := by decide +kernel
  have hlaid (j : Json) := Json.laid_compact j
  have hpart : lenient.IsPart [("missingFieldPolicy", .text "skip"),
      ("scalarNames", .object [("dateTime", .text "string")])] [("dateTime", .text "string")] := by
    refine ⟨⟨_, List.Perm.swap _ _ _, ?_⟩, List.Sublist.subperm ?_⟩
    · exact .cons _ (.cons _ (.cons_cons _ (.cons _ (.cons_cons _ (List.nil_sublist _)))))
    · exact .cons _ (.cons _ (.cons _ (.cons _ (List.Sublist.refl _))))
  have hwhole (o : Options) : o.IsWhole o.members o.scalarNames.members := ⟨by rfl, by rfl⟩
  refine ⟨((ofText_members lenient (hlaid _)).1 hvalid hpart).trans ?_,
    (ofText_members lenient (hlaid _)).2.1 hvalid (hwhole _), ?_⟩
  · decide +kernel
  · exact (ofText_members _ (hlaid _)).2.2 _ (by decide +kernel) (by decide) (hwhole _)

end Options

end SchemaTyping
