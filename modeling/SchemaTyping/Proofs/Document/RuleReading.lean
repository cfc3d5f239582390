import SchemaTyping.Proofs.Document.Inlining
import SchemaTyping.Proofs.Document.RuleGrammar
import SchemaTyping.Proofs.Document.Siblings

set_option autoImplicit false

/-! # The reader of rules and its grammar

Reading a value in the place of a rule succeeds exactly when the value is a rule, and gives what is written
(`Body.readRule_decides`). `Reading.Decides` is what is proved of each step for that: when it succeeds, and what
is true of its result then. Whether a step succeeds does not depend on the registry, so the parts of a value
are decided one by one, by induction on the value (`Body.decided`). -/

namespace SchemaTyping

/-! ## Steps that are decided beforehand -/

namespace Reading

variable {α β : Type}

/-- On every registry the step succeeds exactly when `accepted` holds, and then it only adds instances and
    `good` is true of its result. -/
structure Decides (accepted : Prop) (good : Registry → List InstanceId → α → Prop) (m : Reading α) :
    Prop where
  succeeds_iff : ∀ r, (∃ a r', exec m r = (.ok a, r')) ↔ accepted
  adds : Adds 0 good m

variable {accepted : Prop} {good : Registry → List InstanceId → α → Prop}
variable {goodAfter : Registry → List InstanceId → β → Prop}

theorem Decides.of_ok {m : Reading α} (h : Decides accepted good m) {r r' : Registry} {a : α}
    (hrun : exec m r = (.ok a, r')) : accepted ∧ r.Extends r' ∧ good r' (r.newIds r') a := by
  obtain ⟨hext, hgood⟩ := h.adds.ok (Nat.zero_le _) hrun
  exact ⟨(h.succeeds_iff r).1 ⟨a, r', hrun⟩, hext, hgood r' fun _ _ _ => rfl⟩

theorem Decides.imp {m : Reading α} {accepted' : Prop} {good' : Registry → List InstanceId → α → Prop}
    (h : Decides accepted good m) (haccepted : accepted ↔ accepted')
    (hgood : ∀ s ids a, good s ids a → good' s ids a) : Decides accepted' good' m where
  succeeds_iff := fun r => (h.succeeds_iff r).trans haccepted
  adds := h.adds.imp hgood

theorem decides_pure {a : α} (haccepted : accepted) (h : ∀ s, good s [] a) :
    Decides accepted good (pure a) where
  succeeds_iff := fun r => ⟨fun _ => haccepted, fun _ => ⟨a, r, rfl⟩⟩
  adds := adds_pure h

theorem decides_throw (haccepted : ¬ accepted) (e : DocumentError) :
    Decides accepted good (throw e : Reading α) where
  succeeds_iff := fun _ => ⟨fun ⟨_, _, h⟩ => (by cases h), fun h => absurd h haccepted⟩
  adds := adds_throw e

theorem decides_refuse (haccepted : ¬ accepted) (place : String) (o : Objection) :
    Decides accepted good (liftM (Body.refuse place o : Except DocumentError α) : Reading α) :=
  decides_throw haccepted _

theorem decides_liftM {x : Except DocumentError α} (haccepted : (∃ a, x = .ok a) ↔ accepted) :
    Decides accepted (fun _ ids a => ids = [] ∧ x = .ok a) (liftM x : Reading α) := by
  cases x with
  | ok a => exact decides_pure (haccepted.1 ⟨a, rfl⟩) fun _ => ⟨rfl, rfl⟩
  | error e =>
      refine decides_throw (fun h => ?_) e
      obtain ⟨a, ha⟩ := haccepted.2 h
      cases ha

/-- The first step succeeds when all is accepted, and the second one decides about the rest. It need only be
    known for results that the first one can have. -/
theorem Decides.bind {first : Prop} {m : Reading α} {f : α → Reading β} (hm : Decides first good m)
    (hfirst : accepted → first)
    (hf : first → ∀ a, (∃ s ids, good s ids a) → Decides accepted
      (fun s ids b => ∀ before, good s before a → goodAfter s (before ++ ids) b) (f a)) :
    Decides accepted goodAfter (m >>= f) := by
  have hafter {r r' : Registry} {a : α} (ha : exec m r = (.ok a, r')) :
      Decides accepted (fun s ids b => ∀ before, good s before a → goodAfter s (before ++ ids) b)
        (f a) := by
    obtain ⟨h, -, hgood⟩ := hm.of_ok ha
    exact hf h a ⟨_, _, hgood⟩
  refine ⟨fun r => ⟨?_, fun h => ?_⟩, adds_bind_of hm.adds fun ha => (hafter ha).adds⟩
  · rintro ⟨b, r', hrun⟩
    obtain ⟨a, r₁, ha, hb⟩ := exec_bind_eq_ok.1 hrun
    exact ((hafter ha).of_ok hb).1
  · obtain ⟨a, r₁, ha⟩ := (hm.succeeds_iff r).2 (hfirst h)
    obtain ⟨b, r', hb⟩ := ((hafter ha).succeeds_iff r₁).2 h
    exact ⟨b, r', exec_bind_eq_ok.2 ⟨a, r₁, ha, hb⟩⟩

theorem decides_add (haccepted : accepted) (i : Instance) :
    Decides accepted (fun s ids id => ids = [id] ∧ s.instance? id = some i)
      (modifyGet fun registry => ((registry.add i).2, (registry.add i).1) : Reading InstanceId) where
  succeeds_iff := fun _ => ⟨fun _ => haccepted, fun _ => ⟨_, _, rfl⟩⟩
  adds := adds_add i

end Reading

/-! ## The readers -/

namespace Body

open Reading

variable {scope : Scope}

/-! ### Objects with a special key -/

theorem eq_singleton_of_alone {place key : String} {members : Json.Members} {value : Json}
    (hnames : members.names.Nodup) (hvalue : members.get? key = some value)
    (h : alone place members key = .ok ()) : members = [(key, value)] := by
  have hall := eq_of_alone h
  match members, hnames, hvalue, hall with
  | [(other, first)], _, hvalue, hall =>
      obtain rfl : other = key := hall _ List.mem_cons_self
      simp_all [Table.get?]
  | (one, _) :: (other, _) :: _, hnames, _, hall =>
      have hone : one = key := hall _ List.mem_cons_self
      have hother : other = key := hall _ (List.mem_cons_of_mem _ List.mem_cons_self)
      simp [Table.names, hone, hother] at hnames

theorem alone_decides {key : String} {members : Json.Members} {value : Json}
    (hnames : members.names.Nodup) (hvalue : members.get? key = some value) (place : String) :
    Decides (members = [(key, value)]) (fun _ ids _ => ids = [])
      (liftM (alone place members key) : Reading Unit) := by
  refine (decides_liftM ⟨fun ⟨_, h⟩ => eq_singleton_of_alone hnames hvalue h, ?_⟩).imp Iff.rfl
    fun _ _ _ h => h.1
  rintro rfl
  exact ⟨(), by simp [alone]⟩

/-- The instance is the inline body that the object describes: whatever id it gets comes after `ids`. -/
def WrittenInline (scope : Scope) (members : Json.Members) (s : Registry) (ids : List InstanceId)
    (i : Instance) : Prop :=
  ∀ id, s.instance? id = some i →
    WrittenLeaf scope s.instance? (.object members) (.nested id) (ids ++ [id])

theorem bodyOf_decides {members : Json.Members} {schema fields : Reading Definition}
    (hnames : members.names.Nodup) (href : members.get? refKey = none)
    (hspecial : members.has schemaKey ∨ members.has valuesKey)
    (hschema : ∀ value, members = [(schemaKey, value)] → Decides (IsSpec scope (.object members))
      (fun s ids d => WrittenInline scope members s ids (.schema d)) schema) (place : String) :
    Decides (IsSpec scope (.object members)) (WrittenInline scope members)
      (bodyOf place members schema fields) := by
  unfold bodyOf
  split
  · next value hvalue =>
      refine (alone_decides hnames hvalue place).bind (fun h => ?_) fun heq _ _ => ?_
      · cases h <;> simp_all [Table.get?]
      · subst heq
        cases value with
        | list items =>
            refine decides_pure .listed fun s none hnone id hid => ?_
            obtain rfl := hnone
            exact .listed hid
        | object held =>
            refine decides_pure .keyed fun s none hnone id hid => ?_
            obtain rfl := hnone
            exact .keyed hid
        | _ => exact decides_refuse (by simp [isSpec_object_iff, refKey, schemaKey, valuesKey]) _ _
  · next hvalues =>
      obtain ⟨value, hvalue⟩ : ∃ value, members.get? schemaKey = some value :=
        Option.isSome_iff_exists.1 (hspecial.resolve_right (by simp [Table.has, hvalues]))
      rw [if_pos (by simp [Table.has, hvalue])]
      refine (alone_decides hnames hvalue place).bind (fun h => ?_) fun heq _ _ => ?_
      · cases h <;> simp_all [Table.get?]
      · refine (hschema value heq).bind id fun h d _ => decides_pure h fun s ids hd none hnone => ?_
        obtain rfl := hnone
        simpa using hd

/-- What is read from a type specification. -/
abbrev WrittenSpec (scope : Scope) (j : Json) (s : Registry) (ids : List InstanceId)
    (candidates : List Candidate) : Prop :=
  InTurn (WrittenLeaf scope s.instance?) (leaves j) candidates ids

theorem objectCandidates_decides {members : Json.Members} {schema fields : Reading Definition}
    (hnames : members.names.Nodup)
    (hschema : ∀ value, members = [(schemaKey, value)] → Decides (IsSpec scope (.object members))
      (fun s ids d => WrittenInline scope members s ids (.schema d)) schema) (place : String) :
    Decides (IsSpec scope (.object members)) (WrittenSpec scope (.object members))
      (objectCandidates scope place members schema fields) := by
  unfold objectCandidates
  split
  · next target htarget =>
      refine (alone_decides hnames htarget place).bind (fun h => ?_) fun heq _ _ => ?_
      · cases h <;> simp_all [Table.get?]
      · subst heq
        cases target with
        | text name =>
            dsimp only
            split
            · next id hid =>
                refine decides_pure (.reference (by simp [hid])) fun s none hnone => ?_
                obtain rfl := hnone
                exact .single (.reference hid)
            · next hunknown =>
                refine decides_throw ?_ _
                simp [isSpec_object_iff, hunknown, refKey, schemaKey, valuesKey]
        | _ => exact decides_refuse (by simp [isSpec_object_iff, refKey, schemaKey, valuesKey]) _ _
  · next href =>
      split
      · next hspecial =>
          refine (bodyOf_decides hnames href (by simpa using hspecial) hschema place).bind id
            fun h i _ => (decides_add h i).bind id fun h id _ => decides_pure h ?_
          rintro s added ⟨rfl, hheld⟩ before hi
          rw [List.append_nil]
          exact .single (hi id hheld)
      · next hspecial =>
          refine decides_refuse (fun h => ?_) _ _
          cases h <;> simp_all [Table.get?, Table.has]

/-! ### Rules -/

/-- What is read from the rules of a definition. -/
structure WrittenRules (scope : Scope) (members : Json.Members) (s : Registry) (ids : List InstanceId)
    (rules : Table Rule) : Prop where
  paths : rules.names = members.names
  allRules : InTurn (Written scope s.instance?) (members.map (·.2)) (rules.map (·.2)) ids

/-- What holds of each value in a document: it is read as what the grammar says that it is. -/
structure Decided (scope : Scope) (j : Json) : Prop where
  spec : ∀ place, Decides (IsSpec scope j) (WrittenSpec scope j) (readCandidates scope place j)
  rule : ∀ place, Decides (IsRule scope j) (fun s ids rule => Written scope s.instance? j rule ids)
    (readRule scope place j)
  rules : ∀ members, j = .object members → ∀ place,
    Decides (∀ rule ∈ members, IsRule scope rule.2)
      (fun s ids d => WrittenRules scope members s ids d.rules) (readRules scope place {} members)

theorem readArms_decides {items : List Json} (h : ∀ item ∈ items, Decided scope item) (place : String)
    (i : Nat) :
    Decides (∀ item ∈ items, IsSpec scope item)
      (fun s ids candidates => InTurn (WrittenLeaf scope s.instance?) (leavesOfArms items) candidates ids)
      (readArms scope place i items) := by
  induction items generalizing i with
  | nil => exact decides_pure (fun _ hitem => absurd hitem List.not_mem_nil) fun _ => .nil
  | cons arm rest ih =>
      obtain ⟨harm, hrest⟩ := List.forall_mem_cons.1 h
      rw [readArms]
      refine (harm.spec _).bind (fun h => h arm List.mem_cons_self) fun hfirst first _ => ?_
      have hothers : Decides (∀ item ∈ arm :: rest, IsSpec scope item)
          (fun s ids others => InTurn (WrittenLeaf scope s.instance?) (leavesOfArms rest) others ids)
          (readArms scope place (i + 1) rest) :=
        (ih hrest (i + 1)).imp (by simp [hfirst]) fun _ _ _ h => h
      refine hothers.bind id fun h others _ => decides_pure h fun s ids hids before hbefore => ?_
      rw [List.append_nil]
      exact hbefore.append hids

theorem readRules_decides {members : Json.Members} (h : ∀ member ∈ members, Decided scope member.2)
    (hnames : members.names.Nodup) (place : String) (d : Definition)
    (hnew : ∀ name ∈ members.names, name ∉ d.rules.names) :
    Decides (∀ rule ∈ members, IsRule scope rule.2)
      (fun s ids d' => ∃ rules, d'.rules = d.rules ++ rules ∧ WrittenRules scope members s ids rules)
      (readRules scope place d members) := by
  induction members generalizing d with
  | nil =>
      exact decides_pure (fun _ hrule => absurd hrule List.not_mem_nil) fun _ => ⟨[], by simp, rfl, .nil⟩
  | cons member rest ih =>
      obtain ⟨path, value⟩ := member
      obtain ⟨hmember, hrest⟩ := List.forall_mem_cons.1 h
      obtain ⟨hpath, hothers⟩ := List.nodup_cons.1 hnames
      rw [readRules]
      refine (hmember.rule _).bind (fun h => h _ List.mem_cons_self) fun hfirst rule _ => ?_
      have hinsert : (d.insert path rule).rules = d.rules ++ [(path, rule)] :=
        Table.insert_eq_append rule (hnew path List.mem_cons_self)
      refine (ih hrest hothers (d.insert path rule) ?_).imp (by simp [hfirst]) ?_
      · intro name hname hold
        rw [hinsert, Table.names_append, List.mem_append] at hold
        rcases hold with hold | hsame
        · exact hnew name (List.mem_cons_of_mem _ hname) hold
        · obtain rfl : name = path := by simpa [Table.names] using hsame
          exact hpath hname
      · rintro s ids d' ⟨rules, hrules, hpaths, hall⟩ before hbefore
        refine ⟨(path, rule) :: rules, by rw [hrules, hinsert]; simp, ?_, .cons hbefore hall⟩
        simpa [Table.names] using hpaths

theorem isFullRule_iff {members : Json.Members} :
    isFullRule members ↔ ∀ key ∈ specialKeys, key ∉ members.names := by
  simp [isFullRule, Table.has_eq_false_iff]

theorem not_isFullRule_of_isSpec {members : Json.Members} (h : IsSpec scope (.object members)) :
    ¬ isFullRule members := by
  rw [isFullRule_iff]
  cases h <;> simp [specialKeys, Table.names]

/-- Only a full rule can be an object without special keys. -/
theorem isRule_full_iff {members : Json.Members} (hnames : members.names.Nodup)
    (hfull : isFullRule members) :
    IsRule scope (.object members) ↔ ∃ spec, members.get? "type" = some spec ∧ IsSpec scope spec ∧
      ∀ member ∈ members, Fits scope.overrideKey member.1 member.2 := by
  constructor
  · intro h
    cases h with
    | bare isSpec => exact absurd hfull (not_isFullRule_of_isSpec isSpec)
    | full _ type isSpec attributes => exact ⟨_, Table.get?_of_mem hnames type, isSpec, attributes⟩
  · rintro ⟨spec, htype, hspec, hattributes⟩
    exact .full (isFullRule_iff.1 hfull) (Table.mem_of_get?_eq_some htype) hspec hattributes

theorem isRule_bare_iff {j : Json} (hbare : ∀ members, j = .object members → ¬ isFullRule members) :
    IsRule scope j ↔ IsSpec scope j := by
  refine ⟨fun h => ?_, .bare⟩
  cases h with
  | bare isSpec => exact isSpec
  | full notSpecial => exact absurd (isFullRule_iff.2 notSpecial) (hbare _ rfl)

theorem bareRule_decides {accepted : Prop} {candidates : List Candidate} (haccepted : accepted)
    (hne : candidates ≠ []) (overrideKey : String) :
    Decides accepted (fun _ ids rule => ids = [] ∧ rule.candidates = candidates ∧
      HasAttributes overrideKey [] rule) (liftM (bareRule candidates)) := by
  refine (decides_liftM (iff_of_true ?_ haccepted)).imp Iff.rfl ?_
  · cases candidates with
    | nil => exact absurd rfl hne
    | cons first rest => exact ⟨_, rfl⟩
  · rintro _ ids rule ⟨rfl, hrule⟩
    refine ⟨rfl, ?_, hasAttributes_bareRule hrule⟩
    cases candidates <;> cases hrule
    rfl

/-- A type specification makes a rule without attributes. -/
theorem bare_decides {j : Json} {spec : Reading (List Candidate)}
    (hspec : Decides (IsSpec scope j) (WrittenSpec scope j) spec) :
    Decides (IsSpec scope j) (fun s ids rule => WrittenSpec scope j s ids rule.candidates ∧
      HasAttributes scope.overrideKey [] rule) (do bareRule (← spec)) := by
  refine hspec.bind id fun h candidates hcandidates => ?_
  obtain ⟨s, ids, hcandidates⟩ := hcandidates
  have hne := hcandidates.ne_nil h.leaves_ne_nil
  refine (bareRule_decides h hne scope.overrideKey).imp Iff.rfl ?_
  rintro s none rule ⟨rfl, rfl, hattributes⟩ before hbefore
  rw [List.append_nil]
  exact ⟨hbefore, hattributes⟩

theorem attributes_decides {members : Json.Members} {rule : Rule}
    (hkey : scope.overrideKey ∉ ruleAttributes) (hnames : members.names.Nodup)
    (hbare : HasAttributes scope.overrideKey [] rule) (place : String) :
    Decides (∀ member ∈ members, Fits scope.overrideKey member.1 member.2)
      (fun _ ids rule' => ids = [] ∧ rule'.candidates = rule.candidates ∧
        HasAttributes scope.overrideKey members rule')
      (liftM (members.foldlM (readAttribute scope place) rule)) := by
  refine (decides_liftM (by simp [foldlM_readAttribute_eq_ok_iff hkey])).imp Iff.rfl ?_
  rintro s ids rule' ⟨rfl, hrule'⟩
  obtain ⟨-, rfl⟩ := (foldlM_readAttribute_eq_ok_iff hkey place).1 hrule'
  exact ⟨rfl, foldlM_readAttribute_eq_ok hrule', hbare.foldl_assign hnames⟩

theorem fullRule_decides {members : Json.Members} {type : Reading (List Candidate)}
    (hkey : scope.overrideKey ∉ ruleAttributes) (hnames : members.names.Nodup)
    (hfull : isFullRule members)
    (htype : ∀ spec, members.get? "type" = some spec →
      Decides (IsSpec scope spec) (WrittenSpec scope spec) type) (place : String) :
    Decides (IsRule scope (.object members))
      (fun s ids rule => Written scope s.instance? (.object members) rule ids)
      (fullRule scope place members type) := by
  rw [isRule_full_iff hnames hfull]
  unfold fullRule
  dsimp only
  cases hspec : members.get? "type" with
  | none =>
      rw [if_pos (by simp [Table.has, hspec])]
      have hrefuse : Decides False (fun _ _ _ => True)
          (liftM (refuse place .typeMissing : Except _ Unit) : Reading Unit) :=
        decides_refuse id place _
      exact hrefuse.bind (by simp) fun h => h.elim
  | some spec =>
      rw [if_neg (by simp [Table.has, hspec]), ← bind_assoc]
      refine (bare_decides (htype spec hspec)).bind (by rintro ⟨_, ⟨⟩, h, -⟩; exact h) ?_
      rintro h rule ⟨_, _, -, hbare⟩
      refine (attributes_decides hkey hnames hbare place).imp (by simp [h]) ?_
      rintro s none rule' ⟨rfl, hcandidates, hattributes⟩ before ⟨hbefore, -⟩
      rw [List.append_nil]
      exact .full (Table.mem_of_get?_eq_some hspec) (hcandidates ▸ hbefore) hattributes

/-! ### Values -/

/-- The value of an inline definition is an object of rules. -/
theorem readSchema_decides {members : Json.Members} {value : Json} (h : Decided scope value)
    (hmembers : members = [(schemaKey, value)]) (place : String) :
    Decides (IsSpec scope (.object members))
      (fun s ids d => WrittenInline scope members s ids (.schema d)) (readSchema scope place members) := by
  subst hmembers
  cases value with
  | object rules =>
      rw [readSchema_of_get? place rfl]
      refine (h.rules rules rfl place).imp ?_ fun s ids d hd id hid => .definition hd.paths hd.allRules hid
      simp [isSpec_object_iff, refKey, schemaKey, valuesKey]
  | _ =>
      simp only [readSchema, if_true]
      exact decides_refuse (by simp [isSpec_object_iff, refKey, schemaKey, valuesKey]) _ _

/-- Without attributes a rule is its type specification. -/
theorem decides_of_bare {j : Json} (hbare : ∀ members, j = .object members → ¬ isFullRule members)
    {place : String} (hspec : Decides (IsSpec scope j) (WrittenSpec scope j) (readCandidates scope place j)) :
    Decides (IsRule scope j) (fun s ids rule => Written scope s.instance? j rule ids)
      (readRule scope place j) := by
  have hread : readRule scope place j = (do bareRule (← readCandidates scope place j)) := by
    unfold readRule ruleOf
    split
    · exact if_neg (hbare _ rfl)
    · rfl
  rw [hread]
  exact (bare_decides hspec).imp (isRule_bare_iff hbare).symm fun s ids rule h => .bare h.1 h.2

/-- A value that is no object is decided when it is as a type specification. -/
theorem decided_of_spec {j : Json} (hj : ∀ members, j ≠ .object members)
    (hspec : ∀ place, Decides (IsSpec scope j) (WrittenSpec scope j) (readCandidates scope place j)) :
    Decided scope j where
  spec := hspec
  rule := fun place => decides_of_bare (fun members h => absurd h (hj members)) (hspec place)
  rules := fun members h => absurd h (hj members)

/-- **Every value is read as what the grammar says that it is.** -/
theorem decided (hkey : scope.overrideKey ∉ ruleAttributes) {j : Json} (hj : j.Proper) :
    Decided scope j := by
  -- on the value, in all three roles at once: the parts of a value may have other roles than itself
  induction hj with
  | null => exact decided_of_spec (by simp) fun place => decides_refuse (fun h => by cases h) place _
  | boolean b => exact decided_of_spec (by simp) fun place => decides_refuse (fun h => by cases h) place _
  | number => exact decided_of_spec (by simp) fun place => decides_refuse (fun h => by cases h) place _
  | text name =>
      refine decided_of_spec (by simp) fun place => ?_
      rw [readCandidates]
      cases hkind : kind? name with
      | none =>
          refine decides_throw (fun h => ?_) _
          cases h with
          | kind known => exact Table.get?_eq_none_iff.1 (kind?_eq name ▸ hkind) known
      | some candidate =>
          rw [kind?_eq] at hkind
          have hmem := Table.mem_of_get?_eq_some hkind
          exact decides_pure (.kind (List.mem_map.2 ⟨_, hmem, rfl⟩)) fun _ => .single (.kind hmem)
  | @list items _ ih =>
      refine decided_of_spec (by simp) fun place => ?_
      rw [readCandidates]
      cases items with
      | nil => exact decides_throw (fun h => h.leaves_ne_nil rfl) _
      | cons arm rest =>
          refine (readArms_decides ih place 0).imp ⟨.alternation (List.cons_ne_nil _ _), fun h => ?_⟩
            fun _ _ _ h => h
          cases h with
          | alternation _ allSpecs => exact allSpecs
  | @object members hnames _ ih =>
      have hspec (place : String) : Decides (IsSpec scope (.object members))
          (WrittenSpec scope (.object members)) (readCandidates scope place (.object members)) := by
        rw [readCandidates]
        refine objectCandidates_decides hnames (fun value hmembers => ?_) place
        exact readSchema_decides (ih (schemaKey, value) (hmembers ▸ List.mem_cons_self)) hmembers place
      refine ⟨hspec, fun place => ?_, ?_⟩
      · by_cases hfull : isFullRule members
        · have htype (spec : Json) (htype : Table.get? "type" members = some spec) :
              Decides (IsSpec scope spec) (WrittenSpec scope spec)
                (readType scope place (.object members)) := by
            rw [readType, readTypeMember_of_get? place htype]
            exact (ih ("type", spec) (Table.mem_of_get?_eq_some htype)).spec _
          simp only [readRule, ruleOf, if_pos hfull]
          exact fullRule_decides hkey hnames hfull htype place
        · exact decides_of_bare (fun _ h => by cases h; exact hfull) (hspec place)
      · rintro _ ⟨⟩ place
        refine (readRules_decides ih hnames place {} (by simp [Table.names])).imp Iff.rfl ?_
        rintro s ids d ⟨rules, hrules, h⟩
        rw [hrules]
        exact h

/-- **The rule reader accepts exactly the grammar.** Under valid options, in any place of a document and on
    any registry, a value is read as a rule when it is one and otherwise refused. The rule that is read is the
    one that is written, and the instances of its inline bodies are all that is added: each has an id of its
    own that was not there before. -/
theorem readRule_decides {options : Options} (hvalid : options.validate = .ok ())
    (target? : String → Option InstanceId) (place : String) {j : Json} (hj : j.Proper) (r : Registry) :
    let scope : Scope := ⟨options.overrideKeyName, target?⟩
    ((∃ rule r', exec (readRule scope place j) r = (.ok rule, r')) ↔ IsRule scope j) ∧
      ∀ rule r', exec (readRule scope place j) r = (.ok rule, r') →
        r.Extends r' ∧ Written scope r'.instance? j rule (r.newIds r') := by
  intro scope
  have hkey : scope.overrideKey ∉ ruleAttributes := Options.overrideKeyName_of_validate hvalid
  have hrule := (decided hkey hj).rule place
  exact ⟨hrule.succeeds_iff r, fun rule r' hrun => (hrule.of_ok hrun).2⟩

/-- A field that holds two numbers, one of two words or a shape that is named elsewhere. Its bounds are `-1`
    and `1.5`. -/
def placeRule : Json :=
  .object [("type", .list [
      .object [(schemaKey, .object [("x", .text "Number"), ("y", .text "Number")])],
      .list [.object [(valuesKey, .list [.text "left", .text "right"])],
        .object [(refKey, .text "Shape")]]]),
    ("label", .text "where"), ("optional", .boolean true), ("typeName", .text "Place"), ("unit", .null),
    ("min", .number (.integer (-1))), ("max", .number (.real (.ofIntWithPrec 3 1)))]

/-- The only name that is known is that of the first instance. -/
def shapeScope : Scope where
  overrideKey := "typeName"
  target? := fun name => if name = "Shape" then some ⟨0⟩ else none

theorem placeRule_is_read :
    IsRule shapeScope placeRule ∧
      ∃ rule r', exec (readRule shapeScope "schemas.A.at" placeRule) { instances := [.schema {}] }
          = (.ok rule, r') ∧
        rule.candidates = [.nested ⟨1⟩, .nested ⟨2⟩, .nested ⟨0⟩] ∧ rule.explicitName = some "Place" ∧
        rule.constraints.min = some (.finite (.ofInt (-1))) ∧
        rule.constraints.max = some (.finite (.ofIntWithPrec 3 1)) ∧
        Written shapeScope r'.instance? placeRule rule [⟨1⟩, ⟨2⟩] := by
  have hmin : (Json.number (.integer (-1))).Proper := .number ⟨by decide, by decide⟩
  have hmax (x : Dyadic) : (Json.number (.real x)).Proper := .number trivial
  have hproper : placeRule.Proper := by
    simp [placeRule, Table.names, schemaKey, valuesKey, refKey, Json.Proper.boolean, Json.Proper.null, hmin,
      hmax]
  have hvalid : Options.validate {} = .ok () := by decide +kernel
  obtain ⟨haccepted, hwritten⟩ :=
    readRule_decides hvalid shapeScope.target? "schemas.A.at" hproper { instances := [.schema {}] }
  exact ⟨haccepted.1 ⟨_, _, rfl⟩, _, _, rfl, rfl, rfl, rfl, rfl, (hwritten _ _ rfl).2⟩

end Body

end SchemaTyping
