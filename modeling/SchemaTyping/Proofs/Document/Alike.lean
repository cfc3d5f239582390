import SchemaTyping.Proofs.Document.Bodies
import SchemaTyping.Proofs.Registry.Mirror

set_option autoImplicit false

/-! # Reading a body in another scope

A body that is read in two scopes that differ by a renaming of ids gives the same instance up to that
renaming, or is refused alike (`Body.read_alike`). Where the second scope knows more names, a body that can
be read in the first can be read in the second, with the same instance up to the renaming
(`Body.read_wider`). All that the two registries need to have in common is that adding corresponding
instances gives corresponding ids (`AddsAlike`).

Both follow from one induction along the recursion of the readers (`Body.read_alikeUnless`), in which the
errors for names that only the second scope knows are set aside (`Scope.Matches`). -/

namespace SchemaTyping

variable {σ : InstanceId → InstanceId} {R : Registry → Registry → Prop}

/-- A scope with its ids replaced. -/
def Scope.rename (σ : InstanceId → InstanceId) (scope : Scope) : Scope :=
  { scope with target? := fun name => (scope.target? name).map σ }

/-- What names refer to in the second scope is what they refer to in the first, up to `σ`. A name may refer to
    something in the second scope alone if the first is allowed to fail for it. -/
structure Scope.Matches (lost : DocumentError → Prop) (σ : InstanceId → InstanceId)
    (scope wide : Scope) : Prop where
  overrideKey : wide.overrideKey = scope.overrideKey
  target? : ∀ name, wide.target? name = (scope.target? name).map σ ∨
    scope.target? name = none ∧ ∀ place, lost (.unknownRef place name)

/-- The second scope has the names of the first, up to `σ`, and possibly more. -/
structure Scope.Widens (σ : InstanceId → InstanceId) (scope wide : Scope) : Prop where
  overrideKey : wide.overrideKey = scope.overrideKey
  target? : ∀ name id, scope.target? name = some id → wide.target? name = some (σ id)

theorem Scope.matches_rename (lost : DocumentError → Prop) (σ : InstanceId → InstanceId)
    (scope : Scope) : scope.Matches lost σ (scope.rename σ) := ⟨rfl, fun _ => Or.inl rfl⟩

/-- The reasons that a wider scope may do away with. -/
def DocumentError.IsUnknownRef (e : DocumentError) : Prop := ∃ place name, e = .unknownRef place name

theorem Scope.Widens.matches {scope wide : Scope} (h : scope.Widens σ wide) :
    scope.Matches DocumentError.IsUnknownRef σ wide := by
  refine ⟨h.overrideKey, fun name => ?_⟩
  cases hid : scope.target? name with
  | none => exact Or.inr ⟨rfl, fun place => ⟨place, name, rfl⟩⟩
  | some id => exact Or.inl (h.target? name id hid)

theorem Scope.widens_rename (σ : InstanceId → InstanceId) (scope : Scope) :
    scope.Widens σ (scope.rename σ) := ⟨rfl, fun _ _ h => congrArg (Option.map σ) h⟩

/-- Candidates with their ids replaced. -/
def renameCandidates (σ : InstanceId → InstanceId) (candidates : List Candidate) : List Candidate :=
  candidates.map (Candidate.rename σ)

/-- Adding corresponding instances to related registries gives corresponding ids and leaves the registries
    related. -/
def AddsAlike (σ : InstanceId → InstanceId) (R : Registry → Registry → Prop) : Prop :=
  ∀ (r s : Registry) (i : Instance), R r s →
    (s.add (i.rename σ)).2 = σ (r.add i).2 ∧ R (r.add i).1 (s.add (i.rename σ)).1

theorem AddsAlike.alike_add {lost : DocumentError → Prop} (hR : AddsAlike σ R) (i : Instance) :
    AlikeUnless lost R σ
      (modifyGet fun registry => ((registry.add i).2, (registry.add i).1) : Reading InstanceId)
      (modifyGet fun registry => ((registry.add (i.rename σ)).2, (registry.add (i.rename σ)).1)) := by
  intro r s h
  obtain ⟨hid, hadd⟩ := hR r s i h
  rw [exec_modifyGet, exec_modifyGet, hid]
  exact Or.inl (runAlike_ok hadd)

namespace Body

variable {scope wide : Scope} {lost : DocumentError → Prop}

theorem readAttribute_rename (hkey : wide.overrideKey = scope.overrideKey) (place : String) (rule : Rule)
    (entry : String × Json) :
    readAttribute wide place (rule.rename σ) entry
      = (readAttribute scope place rule entry).map (Rule.rename σ) := by
  obtain ⟨key, value⟩ := entry
  unfold readAttribute
  rw [hkey]
  by_cases hkey : key = scope.overrideKey
  · cases value <;> simp only [hkey, if_true, refuse, Except.map]
    split <;> rfl
  · simp only [hkey, if_false, refuse]
    cases value with
    | text pattern => split <;> first | rfl | (dsimp only; split <;> rfl)
    | _ => split <;> rfl

theorem foldlM_readAttribute_rename (hkey : wide.overrideKey = scope.overrideKey) (place : String)
    (members : Json.Members) (rule : Rule) :
    members.foldlM (readAttribute wide place) (rule.rename σ)
      = (members.foldlM (readAttribute scope place) rule).map (Rule.rename σ) := by
  induction members generalizing rule with
  | nil => rfl
  | cons entry rest ih =>
      rw [List.foldlM_cons, List.foldlM_cons, readAttribute_rename hkey]
      cases readAttribute scope place rule entry with
      | error e => rfl
      | ok rule' => exact ih rule'

theorem bareRule_rename (candidates : List Candidate) :
    bareRule (renameCandidates σ candidates) = (bareRule candidates).map (Rule.rename σ) := by
  cases candidates <;> rfl

theorem bareRule_alike (candidates : List Candidate) :
    AlikeUnless lost R (Rule.rename σ) (liftM (bareRule candidates) : Reading Rule)
      (liftM (bareRule (renameCandidates σ candidates))) := by
  rw [bareRule_rename]
  exact alikeUnless_liftM _ _

theorem alike_refuse {α : Type} (f : α → α) (place : String) (o : Objection) :
    AlikeUnless lost R f (liftM (refuse place o : Except DocumentError α) : Reading α)
      (liftM (refuse place o : Except DocumentError α)) := alikeUnless_throw f _

theorem fullRule_alike (hkey : wide.overrideKey = scope.overrideKey)
    {type type' : Reading (List Candidate)} (place : String)
    (members : Json.Members) (htype : AlikeUnless lost R (renameCandidates σ) type type') :
    AlikeUnless lost R (Rule.rename σ) (fullRule scope place members type)
      (fullRule wide place members type') := by
  have hrest : AlikeUnless lost R (Rule.rename σ)
      (do
        let rule ← bareRule (← type)
        let complete : Except DocumentError Rule := members.foldlM (readAttribute scope place) rule
        complete : Reading Rule)
      (do
        let rule ← bareRule (← type')
        let complete : Except DocumentError Rule :=
          members.foldlM (readAttribute wide place) rule
        complete) := by
    refine alikeUnless_bind htype fun candidates => ?_
    refine alikeUnless_bind (bareRule_alike candidates) fun rule => ?_
    dsimp only
    rw [foldlM_readAttribute_rename hkey]
    exact alikeUnless_liftM _ _
  unfold fullRule
  dsimp only
  split
  · exact alikeUnless_bind (alike_refuse (fun _ => ()) place _) fun _ => hrest
  · exact hrest

theorem ruleOf_alike (hkey : wide.overrideKey = scope.overrideKey)
    {type type' spec spec' : Reading (List Candidate)} (place : String) (value : Json)
    (htype : AlikeUnless lost R (renameCandidates σ) type type')
    (hspec : AlikeUnless lost R (renameCandidates σ) spec spec') :
    AlikeUnless lost R (Rule.rename σ) (ruleOf scope place value type spec)
      (ruleOf wide place value type' spec') := by
  have hbare : AlikeUnless lost R (Rule.rename σ) (do bareRule (← spec) : Reading Rule)
      (do bareRule (← spec')) := alikeUnless_bind hspec bareRule_alike
  unfold ruleOf
  split
  · split
    · exact fullRule_alike hkey place _ htype
    · exact hbare
  · exact hbare

theorem alike_same {α : Type} (x : Except DocumentError α) :
    AlikeUnless lost R id (liftM x : Reading α) (liftM x) := by
  have h : AlikeUnless lost R id (liftM x : Reading α) (liftM (x.map id)) := alikeUnless_liftM id x
  rwa [show x.map id = x by cases x <;> rfl] at h

theorem bodyOf_alike {schema schema' fields fields' : Reading Definition} (place : String)
    (members : Json.Members) (hschema : AlikeUnless lost R (Definition.rename σ) schema schema')
    (hfields : AlikeUnless lost R (Definition.rename σ) fields fields') :
    AlikeUnless lost R (Instance.rename σ) (bodyOf place members schema fields)
      (bodyOf place members schema' fields') := by
  unfold bodyOf
  split
  · refine alikeUnless_bind (alike_same _) fun _ => ?_
    exact alikeUnless_bind (alike_same _) fun held => alikeUnless_pure (Instance.rename σ) (.values held)
  · split
    · refine alikeUnless_bind (alike_same _) fun _ => ?_
      exact alikeUnless_bind hschema fun d => alikeUnless_pure (Instance.rename σ) (.schema d)
    · exact alikeUnless_bind hfields fun d => alikeUnless_pure (Instance.rename σ) (.schema d)

theorem objectCandidates_alike (hR : AddsAlike σ R) (hw : scope.Matches lost σ wide)
    {schema schema' fields fields' : Reading Definition} (place : String) (members : Json.Members)
    (hschema : AlikeUnless lost R (Definition.rename σ) schema schema')
    (hfields : AlikeUnless lost R (Definition.rename σ) fields fields') :
    AlikeUnless lost R (renameCandidates σ) (objectCandidates scope place members schema fields)
      (objectCandidates wide place members schema' fields') := by
  unfold objectCandidates
  split
  · refine alikeUnless_bind (alike_same _) fun _ => ?_
    split
    · next name hget =>
        rcases hw.target? name with htarget | ⟨hnone, hlost⟩
        · rw [htarget]
          cases scope.target? name with
          | some id => exact alikeUnless_pure (renameCandidates σ) [.nested id]
          | none => exact alikeUnless_throw _ _
        · rw [hnone]
          exact alikeUnless_lost _ (hlost place) _
    · exact alike_refuse _ _ _
  · split
    · refine alikeUnless_bind (bodyOf_alike place members hschema hfields) fun body => ?_
      refine alikeUnless_bind (hR.alike_add body) fun id => ?_
      exact alikeUnless_pure (renameCandidates σ) [.nested id]
    · exact alike_refuse _ _ _

theorem kind?_rename {name : String} {candidate : Candidate} (h : kind? name = some candidate) :
    candidate.rename σ = candidate := by
  cases candidate with
  | nested id => exact absurd (kind?_ne_nested h) (by simp [Candidate.id?])
  | _ => rfl

mutual

theorem readCandidates_alike (hR : AddsAlike σ R) (hw : scope.Matches lost σ wide) (place : String)
    (j : Json) :
    AlikeUnless lost R (renameCandidates σ) (readCandidates scope place j)
      (readCandidates wide place j) := by
  cases j with
  | text name =>
      rw [readCandidates, readCandidates]
      split
      · next candidate hkind =>
          have h : AlikeUnless lost R (renameCandidates σ) (pure [candidate] : Reading (List Candidate))
              (pure (renameCandidates σ [candidate])) := alikeUnless_pure _ _
          rwa [renameCandidates, List.map_singleton, kind?_rename hkind] at h
      · exact alikeUnless_throw _ _
  | list items =>
      have harms := readArms_alike hR hw place items 0
      rw [readCandidates, readCandidates]
      cases items with
      | nil => exact alikeUnless_throw _ _
      | cons arm rest => exact harms
  | object members =>
      rw [readCandidates, readCandidates]
      exact objectCandidates_alike hR hw place members (readSchema_alike hR hw place members)
        (readRules_alike hR hw place {} members)
  | null => exact alike_refuse _ _ _
  | boolean b => exact alike_refuse _ _ _
  | number m => exact alike_refuse _ _ _

theorem readArms_alike (hR : AddsAlike σ R) (hw : scope.Matches lost σ wide) (place : String)
    (items : List Json) (i : Nat) :
    AlikeUnless lost R (renameCandidates σ) (readArms scope place i items)
      (readArms wide place i items) := by
  cases items with
  | nil =>
      rw [readArms, readArms]
      exact alikeUnless_pure (renameCandidates σ) []
  | cons arm rest =>
      rw [readArms, readArms]
      refine alikeUnless_bind (readCandidates_alike hR hw _ arm) fun first => ?_
      refine alikeUnless_bind (readArms_alike hR hw place rest (i + 1)) fun others => ?_
      have h : AlikeUnless lost R (renameCandidates σ) (pure (first ++ others) : Reading (List Candidate))
          (pure (renameCandidates σ (first ++ others))) := alikeUnless_pure _ _
      rwa [renameCandidates, List.map_append] at h

theorem readSchema_alike (hR : AddsAlike σ R) (hw : scope.Matches lost σ wide) (place : String)
    (members : List (String × Json)) :
    AlikeUnless lost R (Definition.rename σ) (readSchema scope place members)
      (readSchema wide place members) := by
  cases members with
  | nil =>
      rw [readSchema, readSchema]
      exact alike_refuse _ _ _
  | cons entry rest =>
      obtain ⟨key, value⟩ := entry
      have hrest := readSchema_alike hR hw place rest
      by_cases hkey : key = schemaKey
      · cases value with
        | object rules =>
            simp only [readSchema, if_pos hkey]
            exact readRules_alike hR hw place {} rules
        | null => simp only [readSchema, if_pos hkey]; exact alike_refuse _ _ _
        | boolean b => simp only [readSchema, if_pos hkey]; exact alike_refuse _ _ _
        | number m => simp only [readSchema, if_pos hkey]; exact alike_refuse _ _ _
        | text s => simp only [readSchema, if_pos hkey]; exact alike_refuse _ _ _
        | list items => simp only [readSchema, if_pos hkey]; exact alike_refuse _ _ _
      · cases value <;> simpa only [readSchema, if_neg hkey] using hrest

theorem readType_alike (hR : AddsAlike σ R) (hw : scope.Matches lost σ wide) (place : String)
    (j : Json) :
    AlikeUnless lost R (renameCandidates σ) (readType scope place j)
      (readType wide place j) := by
  cases j with
  | object members =>
      rw [readType, readType]
      exact readTypeMember_alike hR hw place members
  | null => exact alike_refuse _ _ _
  | boolean b => exact alike_refuse _ _ _
  | number m => exact alike_refuse _ _ _
  | text s => exact alike_refuse _ _ _
  | list items => exact alike_refuse _ _ _

theorem readTypeMember_alike (hR : AddsAlike σ R) (hw : scope.Matches lost σ wide) (place : String)
    (members : List (String × Json)) :
    AlikeUnless lost R (renameCandidates σ) (readTypeMember scope place members)
      (readTypeMember wide place members) := by
  cases members with
  | nil =>
      rw [readTypeMember, readTypeMember]
      exact alike_refuse _ _ _
  | cons entry rest =>
      obtain ⟨key, value⟩ := entry
      rw [readTypeMember, readTypeMember]
      split
      · exact readCandidates_alike hR hw _ value
      · exact readTypeMember_alike hR hw place rest

theorem readRules_alike (hR : AddsAlike σ R) (hw : scope.Matches lost σ wide) (place : String)
    (d : Definition) (members : List (String × Json)) :
    AlikeUnless lost R (Definition.rename σ) (readRules scope place d members)
      (readRules wide place (d.rename σ) members) := by
  cases members with
  | nil =>
      rw [readRules, readRules]
      exact alikeUnless_pure (Definition.rename σ) d
  | cons entry rest =>
      obtain ⟨path, value⟩ := entry
      rw [readRules, readRules]
      refine alikeUnless_bind (ruleOf_alike hw.overrideKey _ value (readType_alike hR hw _ value)
        (readCandidates_alike hR hw _ value)) fun rule => ?_
      rw [Definition.insert_rename]
      exact readRules_alike hR hw place (d.insert path rule) rest

end

theorem read_alikeUnless (hR : AddsAlike σ R) (hw : scope.Matches lost σ wide) (place : String)
    (j : Json) :
    AlikeUnless lost R (Instance.rename σ) (read scope place j) (read wide place j) := by
  cases j with
  | object members =>
      exact bodyOf_alike place members (readSchema_alike hR hw place members)
        (readRules_alike hR hw place {} members)
  | null => exact alike_refuse _ _ _
  | boolean b => exact alike_refuse _ _ _
  | number m => exact alike_refuse _ _ _
  | text s => exact alike_refuse _ _ _
  | list items => exact alike_refuse _ _ _

/-- **Under other ids a body gives the same instance or the same error.** -/
theorem read_alike (hR : AddsAlike σ R) (scope : Scope) (place : String) (j : Json) :
    Alike R (Instance.rename σ) (read scope place j) (read (scope.rename σ) place j) :=
  (read_alikeUnless hR (Scope.matches_rename (fun _ => False) σ scope) place j).alike fun _ h => h

/-- **A body that can be read in a scope can be read in a wider one,** with the same instance. -/
theorem read_wider (hR : AddsAlike σ R) (hw : scope.Widens σ wide) {place : String} {j : Json}
    {r s r' : Registry} {i : Instance} (h : R r s)
    (hread : exec (read scope place j) r = (.ok i, r')) :
    ∃ s', exec (read wide place j) s = (.ok (i.rename σ), s') ∧ R r' s' := by
  rcases read_alikeUnless hR hw.matches place j r s h with
    (⟨i', r₁, s', hr, hs, h'⟩ | ⟨e, _, _, hr, -⟩) | ⟨e, he, -⟩
  · cases hread.symm.trans hr
    exact ⟨s', hs, h'⟩
  · cases hread.symm.trans hr
  · rw [hread] at he
    cases he

end Body

end SchemaTyping
