import SchemaTyping.Proofs.Document.Alike
import SchemaTyping.Proofs.Document.Siblings
import SchemaTyping.Proofs.Registry.Constraints

set_option autoImplicit false

/-! # Attributes that are only recorded

A rule with attributes may have some that are recorded and nothing else, and some that nothing knows. `strip`
takes these away wherever a rule is read, at any depth, as long as they are well-typed; one that is not stays,
since it is refused. What is left of a body is read just as the body, the constraints apart
(`Body.read_strip`): the same ids are handed out, the same error is found, and the instance is the one of the
body once it is stripped as well.

The functions follow the readers: `stripInline` is for an object in the place of a type specification,
`stripRules` for a definition, and `stripAttributes` for a rule with attributes. -/

namespace SchemaTyping.Body

/-! ## Stripping -/

/-- Is the attribute recorded, or not known at all, and well-typed? -/
def isRecorded (overrideKey key : String) (value : Json) : Bool :=
  if key = overrideKey ∨ key ∈ "type" :: "optional" :: specialKeys then false
  else match value with
    | .number _ => key ≠ "regex" ∧ key ≠ "label"
    | .text text => key ≠ "min" ∧ key ≠ "max" ∧ (key = "regex" → Regex.isValid text)
    | _ => key ∉ ["min", "max", "regex", "label"]

mutual

/-- A type specification without what is only recorded in it. -/
def stripSpec (overrideKey : String) : Json → Json
  | .list items => .list (stripArms overrideKey items)
  | .object members => .object (stripInline overrideKey members)
  | value => value

/-- The arms of an alternation without what is only recorded in them. -/
def stripArms (overrideKey : String) : List Json → List Json
  | [] => []
  | arm :: rest => stripSpec overrideKey arm :: stripArms overrideKey rest

/-- The members of an object with a special key, without what is only recorded in its definition. -/
def stripInline (overrideKey : String) : List (String × Json) → List (String × Json)
  | [] => []
  | (key, value) :: rest =>
    (key, if key = schemaKey then stripInner overrideKey value else value) :: stripInline overrideKey rest

/-- The value of the key for definitions without what is only recorded in it. -/
def stripInner (overrideKey : String) : Json → Json
  | .object members => .object (stripRules overrideKey members)
  | value => value

/-- The rules of a definition without what is only recorded in them. -/
def stripRules (overrideKey : String) : List (String × Json) → List (String × Json)
  | [] => []
  | (path, value) :: rest => (path, stripRule overrideKey value) :: stripRules overrideKey rest

/-- A rule without what is only recorded in it. -/
def stripRule (overrideKey : String) : Json → Json
  | .list items => .list (stripArms overrideKey items)
  | .object members =>
    .object (if isFullRule members then stripAttributes overrideKey members
      else stripInline overrideKey members)
  | value => value

/-- The attributes of a rule that are not only recorded. -/
def stripAttributes (overrideKey : String) : List (String × Json) → List (String × Json)
  | [] => []
  | (key, value) :: rest =>
    if isRecorded overrideKey key value then stripAttributes overrideKey rest
    else (key, if key = "type" then stripSpec overrideKey value else value) ::
      stripAttributes overrideKey rest

end

/-- A rule with attributes without those that are only recorded. -/
def stripFull (overrideKey : String) : Json → Json
  | .object members => .object (stripAttributes overrideKey members)
  | value => value

/-- A body without what is only recorded in its rules. -/
def strip (overrideKey : String) : Json → Json
  | .object members =>
    .object (if isBare (.object members) then stripRules overrideKey members
      else stripInline overrideKey members)
  | value => value

/-! ## Keys -/

section

variable {k : String} {members : Json.Members}

theorem names_stripInline : Table.names (stripInline k members) = members.names := by
  induction members with
  | nil => rfl
  | cons entry rest ih => simpa [stripInline, Table.names] using ih

theorem names_stripRules : Table.names (stripRules k members) = members.names := by
  induction members with
  | nil => rfl
  | cons entry rest ih => simpa [stripRules, Table.names] using ih

theorem alone_eq (place key : String) (members : Json.Members) :
    alone place members key =
      match members.names.find? (· ≠ key) with
      | none => .ok ()
      | some other => refuse place (.notAlone key other) := by
  unfold alone Table.names
  rw [List.find?_map]
  simp only [Function.comp_def]
  cases members.find? (·.1 ≠ key) <;> rfl

/-- Only the keys decide whether an object has another key. -/
theorem alone_of_names {members' : Json.Members} (h : members'.names = members.names) (place key : String) :
    alone place members' key = alone place members key := by
  rw [alone_eq, alone_eq, h]

theorem has_of_names {members' : Json.Members} (h : members'.names = members.names) (key : String) :
    members'.has key = members.has key := by
  rw [Bool.eq_iff_iff, Table.has_iff, Table.has_iff, h]

/-- Only the value under the key for definitions is stripped. -/
theorem get?_stripInline {key : String} (hkey : key ≠ schemaKey) :
    Table.get? key (stripInline k members) = members.get? key := by
  induction members with
  | nil => rfl
  | cons entry rest ih =>
      obtain ⟨other, value⟩ := entry
      simp only [stripInline, Table.get?, ih]
      by_cases hother : other = key
      · have hne : other ≠ schemaKey := hother ▸ hkey
        simp [hother, hkey]
      · simp [hother]

theorem has_stripAttributes {key : String} (hkey : key ∈ "type" :: "optional" :: specialKeys) :
    Table.has key (stripAttributes k members) = members.has key := by
  have hkept (value : Json) : isRecorded k key value = false := by
    unfold isRecorded
    exact if_pos (Or.inr hkey)
  induction members with
  | nil => rfl
  | cons entry rest ih =>
      obtain ⟨other, value⟩ := entry
      unfold stripAttributes
      by_cases hother : other = key
      · subst hother
        simp [hkept, Table.has, Table.get?]
      · unfold Table.has at ih ⊢
        split <;> simp [Table.get?, hother, ih]

theorem isFullRule_stripAttributes : isFullRule (stripAttributes k members) = isFullRule members := by
  have hspecial (key : String) (hkey : key ∈ specialKeys) :
      Table.has key (stripAttributes k members) = members.has key :=
    has_stripAttributes (List.mem_cons_of_mem _ (List.mem_cons_of_mem _ hkey))
  unfold isFullRule
  rw [Bool.eq_iff_iff, List.all_eq_true, List.all_eq_true]
  refine forall₂_congr fun key hkey => ?_
  rw [hspecial key hkey]

end

/-! ## Attributes -/

section

variable {scope : Scope} {key : String} {value : Json}

/-- What is only recorded changes nothing but the constraints of the rule. -/
theorem readAttribute_of_isRecorded (h : isRecorded scope.overrideKey key value) (place : String)
    (rule : Rule) :
    ∃ rule', readAttribute scope place rule (key, value) = .ok rule' ∧ rule'.strip = rule.strip := by
  unfold isRecorded at h
  split at h
  · exact absurd h Bool.false_ne_true
  · next hkey =>
      rw [not_or] at hkey
      simp only [readAttribute, if_neg hkey.1]
      cases value <;> split <;> simp_all [Rule.strip]

/-- What is not is read into a rule without constraints just as into the rule. -/
theorem readAttribute_strip (h : isRecorded scope.overrideKey key value = false) (place : String)
    (rule : Rule) :
    readAttribute scope place rule.strip (key, value)
      = (readAttribute scope place rule (key, value)).map Rule.strip := by
  unfold isRecorded at h
  by_cases hkey : key = scope.overrideKey
  · simp only [readAttribute, if_pos hkey]
    cases value <;> first | rfl | (dsimp only; split <;> rfl)
  · simp only [readAttribute, if_neg hkey]
    cases value <;> split <;>
      simp_all [Rule.strip, refuse, Except.map, specialKeys, refKey, schemaKey, valuesKey]

theorem readAttribute_type (scope : Scope) (place : String) (rule : Rule) (value : Json) :
    readAttribute scope place rule ("type", stripSpec scope.overrideKey value)
      = readAttribute scope place rule ("type", value) := by
  cases value <;> simp [readAttribute, stripSpec]

/-- **The attributes that are left make the same of a rule**, but for its constraints. -/
theorem foldlM_stripAttributes (place : String) (members : Json.Members) (rule : Rule) :
    (stripAttributes scope.overrideKey members).foldlM (readAttribute scope place) rule.strip
      = (members.foldlM (readAttribute scope place) rule).map Rule.strip := by
  induction members generalizing rule with
  | nil => rfl
  | cons entry rest ih =>
      obtain ⟨key, value⟩ := entry
      rw [stripAttributes, List.foldlM_cons]
      split
      · next hrecorded =>
          obtain ⟨rule', hrule', hstrip⟩ := readAttribute_of_isRecorded hrecorded place rule
          rw [hrule', ← hstrip, ih]
          rfl
      · next hkept =>
          have hfirst : readAttribute scope place rule.strip
              (key, if key = "type" then stripSpec scope.overrideKey value else value)
              = (readAttribute scope place rule (key, value)).map Rule.strip := by
            rw [← readAttribute_strip (by simpa using hkept)]
            split
            · next htype =>
                subst htype
                exact readAttribute_type scope place _ value
            · rfl
          rw [List.foldlM_cons, hfirst]
          cases readAttribute scope place rule (key, value) with
          | error e => rfl
          | ok rule' => exact ih rule'

end

/-! ## Reading -/

section

variable {lost : DocumentError → Prop} {scope : Scope}

theorem bareRule_alike_strip (candidates : List Candidate) :
    AlikeUnless lost Registry.Resembles Rule.strip (liftM (bareRule candidates) : Reading Rule)
      (liftM (bareRule candidates)) := by
  have h : AlikeUnless lost Registry.Resembles Rule.strip (liftM (bareRule candidates) : Reading Rule)
      (liftM ((bareRule candidates).map Rule.strip)) := alikeUnless_liftM _ _
  rwa [show (bareRule candidates).map Rule.strip = bareRule candidates by cases candidates <;> rfl] at h

theorem fullRule_strip {type type' : Reading (List Candidate)} (place : String) (members : Json.Members)
    (htype : AlikeUnless lost Registry.Resembles id type type') :
    AlikeUnless lost Registry.Resembles Rule.strip (fullRule scope place members type)
      (fullRule scope place (stripAttributes scope.overrideKey members) type') := by
  have hrest : AlikeUnless lost Registry.Resembles Rule.strip
      (do
        let rule ← bareRule (← type)
        let complete : Except DocumentError Rule := members.foldlM (readAttribute scope place) rule
        complete : Reading Rule)
      (do
        let rule ← bareRule (← type')
        let complete : Except DocumentError Rule :=
          (stripAttributes scope.overrideKey members).foldlM (readAttribute scope place) rule
        complete) := by
    refine alikeUnless_bind htype fun candidates => ?_
    refine alikeUnless_bind (bareRule_alike_strip candidates) fun rule => ?_
    dsimp only
    rw [foldlM_stripAttributes]
    exact alikeUnless_liftM _ _
  unfold fullRule
  rw [has_stripAttributes List.mem_cons_self]
  dsimp only
  split
  · exact alikeUnless_bind (alike_refuse (fun _ => ()) place _) fun _ => hrest
  · exact hrest

theorem bodyOf_strip {schema schema' fields fields' : Reading Definition} (place : String)
    {members members' : Json.Members} (hnames : members'.names = members.names)
    (hvalues : members'.get? valuesKey = members.get? valuesKey)
    (hschema : members.has schemaKey → AlikeUnless lost Registry.Resembles Definition.strip schema schema')
    (hfields : isBare (.object members) →
      AlikeUnless lost Registry.Resembles Definition.strip fields fields') :
    AlikeUnless lost Registry.Resembles Instance.strip (bodyOf place members schema fields)
      (bodyOf place members' schema' fields') := by
  unfold bodyOf
  rw [hvalues, has_of_names hnames, alone_of_names hnames, alone_of_names hnames]
  split
  · refine alikeUnless_bind (alike_same _) fun _ => ?_
    exact alikeUnless_bind (alike_same _) fun held => alikeUnless_pure Instance.strip (.values held)
  · next hnone =>
      split
      · next hinline =>
          refine alikeUnless_bind (alike_same _) fun _ => ?_
          exact alikeUnless_bind (hschema hinline) fun d => alikeUnless_pure Instance.strip (.schema d)
      · next hbare =>
          refine alikeUnless_bind (hfields ?_) fun d => alikeUnless_pure Instance.strip (.schema d)
          simp [isBare, Table.has, hnone] at hbare ⊢
          exact hbare

/-- An instance is added under the same id. -/
theorem add_strip (i : Instance) :
    AlikeUnless lost Registry.Resembles id
      (modifyGet fun registry => ((registry.add i).2, (registry.add i).1) : Reading InstanceId)
      (modifyGet fun registry => ((registry.add i.strip).2, (registry.add i.strip).1)) := by
  intro r s h
  rw [exec_modifyGet, exec_modifyGet, h.add_snd i i.strip]
  exact Or.inl (runAlike_ok (h.add i.strip_strip))

theorem objectCandidates_strip {schema schema' fields fields' : Reading Definition} (place : String)
    (members : Json.Members)
    (hschema : AlikeUnless lost Registry.Resembles Definition.strip schema schema') :
    AlikeUnless lost Registry.Resembles id (objectCandidates scope place members schema fields)
      (objectCandidates scope place (stripInline scope.overrideKey members) schema' fields') := by
  unfold objectCandidates
  rw [get?_stripInline (by decide), alone_of_names names_stripInline, has_of_names names_stripInline,
    has_of_names names_stripInline]
  split
  · refine alikeUnless_bind (alike_same _) fun _ => ?_
    split
    · split
      · exact alikeUnless_pure id _
      · exact alikeUnless_throw _ _
    · exact alike_refuse _ _ _
  · split
    · next hspecial =>
        have hbody : AlikeUnless lost Registry.Resembles Instance.strip
            (bodyOf place members schema fields)
            (bodyOf place (stripInline scope.overrideKey members) schema' fields') := by
          refine bodyOf_strip place names_stripInline (get?_stripInline (by decide)) (fun _ => hschema) ?_
          intro hbare
          simp only [isBare, Bool.and_eq_true, Bool.not_eq_true'] at hbare
          simp [hbare.1, hbare.2] at hspecial
        refine alikeUnless_bind hbody fun body => ?_
        exact alikeUnless_bind (add_strip body) fun id => alikeUnless_pure _ _
    · exact alike_refuse _ _ _

/-- A rule, from its type specification with attributes and without. -/
theorem readRule_strip (place : String) {value : Json}
    (htype : AlikeUnless lost Registry.Resembles id (readType scope place value)
      (readType scope place (stripFull scope.overrideKey value)))
    (hspec : AlikeUnless lost Registry.Resembles id (readCandidates scope place value)
      (readCandidates scope place (stripSpec scope.overrideKey value))) :
    AlikeUnless lost Registry.Resembles Rule.strip (readRule scope place value)
      (readRule scope place (stripRule scope.overrideKey value)) := by
  have hbare : AlikeUnless lost Registry.Resembles Rule.strip
      (do bareRule (← readCandidates scope place value) : Reading Rule)
      (do bareRule (← readCandidates scope place (stripSpec scope.overrideKey value))) :=
    alikeUnless_bind hspec fun candidates => bareRule_alike_strip candidates
  cases value with
  | object members =>
      by_cases hfull : isFullRule members
      · simp only [readRule, ruleOf, stripRule, if_pos hfull, isFullRule_stripAttributes]
        exact fullRule_strip place members htype
      · have hnotFull : isFullRule (stripInline scope.overrideKey members) = isFullRule members := by
          simp only [isFullRule, has_of_names names_stripInline]
        simp only [readRule, ruleOf, stripRule, if_neg hfull, hnotFull]
        exact hbare
  | list items => exact hbare
  | _ => exact hbare

mutual

theorem readCandidates_strip (place : String) (j : Json) :
    AlikeUnless lost Registry.Resembles id (readCandidates scope place j)
      (readCandidates scope place (stripSpec scope.overrideKey j)) := by
  cases j with
  | list items =>
      have harms := readArms_strip place items 0
      rw [stripSpec, readCandidates, readCandidates]
      cases items with
      | nil => exact alikeUnless_throw _ _
      | cons arm rest => exact harms
  | object members =>
      rw [stripSpec, readCandidates, readCandidates]
      exact objectCandidates_strip place members (readSchema_strip place members)
  | text name =>
      rw [stripSpec, readCandidates]
      split
      · exact alikeUnless_pure id _
      · exact alikeUnless_throw _ _
      all_goals nofun
  | null => exact alike_refuse _ _ _
  | boolean b => exact alike_refuse _ _ _
  | number m => exact alike_refuse _ _ _

theorem readArms_strip (place : String) (items : List Json) (i : Nat) :
    AlikeUnless lost Registry.Resembles id (readArms scope place i items)
      (readArms scope place i (stripArms scope.overrideKey items)) := by
  cases items with
  | nil =>
      rw [stripArms, readArms]
      exact alikeUnless_pure id []
  | cons arm rest =>
      rw [stripArms, readArms, readArms]
      refine alikeUnless_bind (readCandidates_strip _ arm) fun first => ?_
      exact alikeUnless_bind (readArms_strip place rest (i + 1)) fun others => alikeUnless_pure id _

theorem readSchema_strip (place : String) (members : List (String × Json)) :
    AlikeUnless lost Registry.Resembles Definition.strip (readSchema scope place members)
      (readSchema scope place (stripInline scope.overrideKey members)) := by
  cases members with
  | nil =>
      rw [stripInline, readSchema]
      exact alike_refuse _ _ _
  | cons entry rest =>
      obtain ⟨key, value⟩ := entry
      have hrest := readSchema_strip place rest
      by_cases hkey : key = schemaKey
      · cases value with
        | object rules =>
            simp only [stripInline, stripInner, readSchema, if_pos hkey]
            exact readRules_strip place {} rules
        | _ =>
            simp only [stripInline, stripInner, readSchema, if_pos hkey]
            exact alike_refuse _ _ _
      · cases value <;> simpa only [stripInline, readSchema, if_neg hkey] using hrest

theorem readType_strip (place : String) (j : Json) :
    AlikeUnless lost Registry.Resembles id (readType scope place j)
      (readType scope place (stripFull scope.overrideKey j)) := by
  cases j with
  | object members =>
      rw [stripFull, readType, readType]
      exact readTypeMember_strip place members
  | null => exact alike_refuse _ _ _
  | boolean b => exact alike_refuse _ _ _
  | number m => exact alike_refuse _ _ _
  | text s => exact alike_refuse _ _ _
  | list items => exact alike_refuse _ _ _

theorem readTypeMember_strip (place : String) (members : List (String × Json)) :
    AlikeUnless lost Registry.Resembles id (readTypeMember scope place members)
      (readTypeMember scope place (stripAttributes scope.overrideKey members)) := by
  cases members with
  | nil =>
      rw [stripAttributes, readTypeMember]
      exact alike_refuse _ _ _
  | cons entry rest =>
      obtain ⟨key, value⟩ := entry
      have hrest := readTypeMember_strip place rest
      rw [stripAttributes, readTypeMember]
      by_cases hkey : key = "type"
      · have hkept : isRecorded scope.overrideKey key value = false := by
          unfold isRecorded
          exact if_pos (Or.inr (hkey ▸ List.mem_cons_self))
        simp only [hkept, Bool.false_eq_true, if_false, readTypeMember, if_pos hkey]
        exact readCandidates_strip _ value
      · rw [if_neg hkey]
        split
        · exact hrest
        · rw [readTypeMember, if_neg hkey]
          exact hrest

theorem readRules_strip (place : String) (d : Definition) (members : List (String × Json)) :
    AlikeUnless lost Registry.Resembles Definition.strip (readRules scope place d members)
      (readRules scope place d.strip (stripRules scope.overrideKey members)) := by
  cases members with
  | nil =>
      rw [stripRules, readRules, readRules]
      exact alikeUnless_pure Definition.strip d
  | cons entry rest =>
      obtain ⟨path, value⟩ := entry
      rw [stripRules, readRules, readRules]
      have hrule := readRule_strip (atKey place path) (readType_strip _ value) (readCandidates_strip _ value)
      refine alikeUnless_bind hrule fun rule => ?_
      rw [Definition.insert_strip]
      exact readRules_strip place (d.insert path rule) rest

end

/-- A definition has no holder under the key for values, and none once it is stripped. -/
theorem get?_stripRules {k : String} {members : Json.Members} (hbare : isBare (.object members)) :
    Table.get? valuesKey (stripRules k members) = members.get? valuesKey := by
  have hnone {m : Json.Members} (h : m.has valuesKey = false) : m.get? valuesKey = none := by
    simpa [Table.has] using h
  simp only [isBare, Bool.and_eq_true, Bool.not_eq_true'] at hbare
  rw [hnone hbare.2, hnone]
  rw [has_of_names names_stripRules]
  exact hbare.2

/-- **A stripped body is read just as the body**, constraints apart. -/
theorem read_strip (scope : Scope) (place : String) (j : Json) :
    Alike Registry.Resembles Instance.strip (read scope place j)
      (read scope place (strip scope.overrideKey j)) := by
  suffices h : AlikeUnless (fun _ => False) Registry.Resembles Instance.strip (read scope place j)
      (read scope place (strip scope.overrideKey j)) from h.alike fun _ => not_false
  cases j with
  | object members =>
      unfold strip
      by_cases hbare : isBare (.object members)
      · simp only [if_pos hbare, read]
        -- the definition is read from its own members, and there is no other to read
        refine bodyOf_strip place names_stripRules (get?_stripRules hbare) (fun hinline => ?_)
          fun _ => readRules_strip place {} members
        simp [isBare, hinline] at hbare
      · simp only [if_neg hbare, read]
        exact bodyOf_strip place names_stripInline (get?_stripInline (by decide))
          (fun _ => readSchema_strip place members) fun h => absurd h hbare
  | _ => exact alike_refuse _ _ _

end

/-! ## Bodies that are only another name -/

theorem aliasTarget?_stripRules (k : String) (members : Json.Members) :
    aliasTarget? (.object (stripRules k members)) = aliasTarget? (.object members) := by
  match members with
  | [] => rfl
  | [(key, value)] => cases value <;> rfl
  | (key, value) :: second :: rest => cases value <;> rfl

theorem aliasTarget?_stripInline (k : String) (members : Json.Members) :
    aliasTarget? (.object (stripInline k members)) = aliasTarget? (.object members) := by
  match members with
  | [] => rfl
  | [(key, value)] =>
      by_cases hkey : key = schemaKey <;> cases value <;>
        simp [stripInline, stripInner, aliasTarget?, hkey]
  | (key, value) :: (key', value') :: rest => simp [stripInline, aliasTarget?]

theorem aliasTarget?_strip (k : String) (j : Json) : aliasTarget? (strip k j) = aliasTarget? j := by
  cases j with
  | object members =>
      by_cases hbare : isBare (.object members)
      · simp only [strip, if_pos hbare, aliasTarget?_stripRules]
      · simp only [strip, if_neg hbare, aliasTarget?_stripInline]
  | _ => rfl

end SchemaTyping.Body
