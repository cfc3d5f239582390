import SchemaTyping.Proofs.Document.Steps
import SchemaTyping.Proofs.Registry.Closed

set_option autoImplicit false

/-! # What reading a body keeps

Reading a body only adds instances, and the instances it adds point to what is there. `Reading.Keeps`
states that of a step, together with what is known of its result from then on; it is proved for each way
to compose steps and then, following the recursion of the readers, for every reader of the bodies of a
document. Alternations come out with at least one candidate, so that the registry never refuses one. -/

namespace SchemaTyping

/-! ## Composing steps -/

/-- On a closed registry with at least `n` instances the step only adds instances and leaves the registry
    closed. Its result is good for the registry that is left and for all larger ones; a refusal is not
    one by the registry. -/
def Reading.Keeps {α : Type} (n : Nat) (good : α → Nat → Prop) (m : Reading α) : Prop :=
  ∀ r : Registry, r.Closed → n ≤ r.instances.length →
    r.Extends (exec m r).2 ∧ (exec m r).2.Closed ∧
      match (exec m r).1 with
      | .ok a => ∀ k, (exec m r).2.instances.length ≤ k → good a k
      | .error e => ∀ x, e ≠ .registry x

namespace Reading

variable {α β : Type} {n : Nat} {good : α → Nat → Prop} {goodAfter : β → Nat → Prop}

theorem keeps_pure {a : α} (h : ∀ k, n ≤ k → good a k) : Keeps n good (pure a) :=
  fun r hr hn => ⟨.refl r, hr, fun k hk => h k (Nat.le_trans hn hk)⟩

theorem keeps_throw {e : DocumentError} (h : ∀ x, e ≠ .registry x) :
    Keeps n good (throw e : Reading α) := fun r hr _ => ⟨.refl r, hr, h⟩

theorem keeps_liftM {x : Except DocumentError α} (hok : ∀ a, x = .ok a → ∀ k, n ≤ k → good a k)
    (herror : ∀ e, x = .error e → ∀ y, e ≠ .registry y) : Keeps n good (liftM x : Reading α) := by
  intro r hr hn
  refine ⟨.refl r, hr, ?_⟩
  rw [exec_liftM]
  cases x with
  | ok a => exact fun k hk => hok a rfl k (Nat.le_trans hn hk)
  | error e => exact herror e rfl

theorem keeps_bind {m : Reading α} {f : α → Reading β} (hm : Keeps n good m)
    (hf : ∀ a k, n ≤ k → (∀ j, k ≤ j → good a j) → Keeps k goodAfter (f a)) :
    Keeps n goodAfter (m >>= f) := by
  intro r hr hn
  obtain ⟨hext, hclosed, hout⟩ := hm r hr hn
  rcases hrun : exec m r with ⟨outcome, r'⟩
  rw [hrun] at hext hclosed hout
  cases outcome with
  | ok a =>
      rw [exec_bind_of_ok hrun]
      obtain ⟨hext', hclosed', hout'⟩ :=
        hf a r'.instances.length (Nat.le_trans hn hext.length_le) hout r' hclosed (Nat.le_refl _)
      exact ⟨hext.trans hext', hclosed', hout'⟩
  | error e =>
      rw [exec_bind_of_error hrun]
      exact ⟨hext, hclosed, hout⟩

theorem Keeps.mono {m : Reading α} {n' : Nat} (hm : Keeps n good m) (h : n ≤ n') :
    Keeps n' good m := fun r hr hn => hm r hr (Nat.le_trans h hn)

theorem Keeps.imp {m : Reading α} {good' : α → Nat → Prop} (hm : Keeps n good m)
    (h : ∀ a k, good a k → good' a k) : Keeps n good' m := by
  intro r hr hn
  obtain ⟨hext, hclosed, hout⟩ := hm r hr hn
  refine ⟨hext, hclosed, ?_⟩
  split
  · next a ha =>
      rw [ha] at hout
      exact fun k hk => h a k (hout k hk)
  · next e he =>
      rw [he] at hout
      exact hout

/-- The one step that adds something: its id is new, so it is good from then on. -/
theorem keeps_add {i : Instance} (hi : ∀ id ∈ i.ids, id.index < n) :
    Keeps n (fun id k => id.index < k)
      (modifyGet fun registry => ((registry.add i).2, (registry.add i).1) : Reading InstanceId) := by
  intro r hr hn
  rw [exec_modifyGet]
  exact ⟨r.extends_add i, hr.add fun id hid => Nat.lt_of_lt_of_le (hi id hid) hn,
    fun k hk => Nat.lt_of_lt_of_le (r.has_add_snd i) hk⟩

end Reading

namespace Body

/-! ## Rules -/

theorem readAttribute_eq_ok {scope : Scope} {place : String} {rule rule' : Rule}
    {entry : String × Json} (h : readAttribute scope place rule entry = .ok rule') :
    rule'.candidates = rule.candidates := by
  obtain ⟨key, value⟩ := entry
  unfold readAttribute at h
  repeat' split at h
  all_goals cases h <;> rfl

theorem readAttribute_eq_error {scope : Scope} {place : String} {rule : Rule}
    {entry : String × Json} {e : DocumentError}
    (h : readAttribute scope place rule entry = .error e) : ∃ o, e = .invalid place o := by
  obtain ⟨key, value⟩ := entry
  unfold readAttribute refuse at h
  repeat' split at h
  all_goals cases h <;> exact ⟨_, rfl⟩

theorem foldlM_readAttribute_eq_ok {scope : Scope} {place : String} {members : Json.Members} :
    ∀ {rule rule' : Rule}, members.foldlM (readAttribute scope place) rule = .ok rule' →
      rule'.candidates = rule.candidates := by
  induction members with
  | nil => intro rule rule' h; cases h; rfl
  | cons entry rest ih =>
      intro rule rule' h
      rw [List.foldlM_cons] at h
      cases hentry : readAttribute scope place rule entry with
      | error e => rw [hentry] at h; cases h
      | ok rule'' =>
          rw [hentry] at h
          exact (ih h).trans (readAttribute_eq_ok hentry)

theorem foldlM_readAttribute_eq_error {scope : Scope} {place : String} {members : Json.Members}
    {e : DocumentError} :
    ∀ {rule : Rule}, members.foldlM (readAttribute scope place) rule = .error e →
      ∃ o, e = .invalid place o := by
  induction members with
  | nil => intro rule h; cases h
  | cons entry rest ih =>
      intro rule h
      rw [List.foldlM_cons] at h
      cases hentry : readAttribute scope place rule entry with
      | error e' =>
          rw [hentry] at h
          cases h
          exact readAttribute_eq_error hentry
      | ok rule' =>
          rw [hentry] at h
          exact ih h

/-- A rule is refused by the registry only for want of candidates. -/
theorem bareRule_of_ne_nil {candidates : List Candidate} (h : candidates ≠ []) :
    ∃ rule, bareRule candidates = .ok rule ∧ rule.candidates = candidates := by
  refine ⟨{ candidates, candidates_ne_nil := h }, ?_, rfl⟩
  simp only [bareRule, Rule.oneOf, Rule.oneOf?, dif_neg h]
  rfl

/-! ## Readers -/

/-- Ids of instances below a bound. -/
def IdsBelow (ids : List InstanceId) (k : Nat) : Prop := ∀ id ∈ ids, id.index < k

/-- At least one candidate, and all that point to an instance point below a bound. -/
def CandidatesBelow (candidates : List Candidate) (k : Nat) : Prop :=
  candidates ≠ [] ∧ IdsBelow (candidates.filterMap Candidate.id?) k

/-- Names refer to instances below a bound. -/
def ScopeBelow (scope : Scope) (n : Nat) : Prop :=
  ∀ name id, scope.target? name = some id → id.index < n

theorem ScopeBelow.mono {scope : Scope} {n k : Nat} (h : ScopeBelow scope n) (hk : n ≤ k) :
    ScopeBelow scope k := fun name id hid => Nat.lt_of_lt_of_le (h name id hid) hk

variable {scope : Scope} {n : Nat}

theorem keeps_refuse {α : Type} {good : α → Nat → Prop} (place : String) (o : Objection) :
    Reading.Keeps n good (liftM (refuse place o : Except DocumentError α) : Reading α) :=
  Reading.keeps_liftM (fun _ h => by cases h) fun _ h _ => by cases h; exact DocumentError.noConfusion

theorem bareRule_keeps {candidates : List Candidate} (h : ∀ k, n ≤ k → CandidatesBelow candidates k) :
    Reading.Keeps n (fun rule k => IdsBelow rule.ids k) (liftM (bareRule candidates)) := by
  obtain ⟨rule, hrule, hcandidates⟩ := bareRule_of_ne_nil (h n (Nat.le_refl n)).1
  rw [hrule]
  refine Reading.keeps_liftM (fun a ha k hk => ?_) (fun e he => by cases he)
  cases ha
  rw [Rule.ids, hcandidates]
  exact (h k hk).2

theorem fullRule_keeps {type : Reading (List Candidate)} (place : String) (members : Json.Members)
    (htype : Reading.Keeps n CandidatesBelow type) :
    Reading.Keeps n (fun rule k => IdsBelow rule.ids k) (fullRule scope place members type) := by
  have hrest : Reading.Keeps n (fun (rule : Rule) k => IdsBelow rule.ids k)
      (do
        let rule ← bareRule (← type)
        let complete : Except DocumentError Rule := members.foldlM (readAttribute scope place) rule
        complete) := by
    refine Reading.keeps_bind htype fun candidates k _ hcandidates => ?_
    refine Reading.keeps_bind (bareRule_keeps hcandidates) fun rule j _ hrule => ?_
    refine Reading.keeps_liftM (fun rule' h k hk => ?_) fun e h => ?_
    · rw [Rule.ids, foldlM_readAttribute_eq_ok h]
      exact hrule k hk
    · obtain ⟨o, rfl⟩ := foldlM_readAttribute_eq_error h
      exact fun _ => DocumentError.noConfusion
  unfold fullRule
  dsimp only
  split
  · have hrefuse : Reading.Keeps n (fun _ _ => True) (liftM (refuse place .typeMissing : Except _ Unit)) :=
      keeps_refuse place .typeMissing
    exact Reading.keeps_bind hrefuse fun _ _ hk _ => hrest.mono hk
  · exact hrest

theorem ruleOf_keeps {type spec : Reading (List Candidate)} (place : String) (value : Json)
    (htype : Reading.Keeps n CandidatesBelow type) (hspec : Reading.Keeps n CandidatesBelow spec) :
    Reading.Keeps n (fun rule k => IdsBelow rule.ids k) (ruleOf scope place value type spec) := by
  have hbare : Reading.Keeps n (fun (rule : Rule) k => IdsBelow rule.ids k)
      (do bareRule (← spec)) :=
    Reading.keeps_bind hspec fun _ _ _ hcandidates => bareRule_keeps hcandidates
  unfold ruleOf
  split
  · split
    · exact fullRule_keeps place _ htype
    · exact hbare
  · exact hbare

theorem alone_keeps {place : String} {members : Json.Members} {key : String} :
    Reading.Keeps n (fun _ _ => True) (liftM (alone place members key) : Reading Unit) := by
  refine Reading.keeps_liftM (fun _ _ _ _ => trivial) fun e h => ?_
  unfold alone refuse at h
  split at h <;> cases h
  exact fun _ => DocumentError.noConfusion

theorem enumValues_keeps {place : String} {value : Json} :
    Reading.Keeps n (fun _ _ => True) (liftM (enumValues place value) : Reading (List EnumValue)) := by
  refine Reading.keeps_liftM (fun _ _ _ _ => trivial) fun e h => ?_
  unfold enumValues refuse at h
  split at h <;> cases h
  exact fun _ => DocumentError.noConfusion

theorem bodyOf_keeps {schema fields : Reading Definition} (place : String) (members : Json.Members)
    (hschema : Reading.Keeps n (fun d k => IdsBelow d.ids k) schema)
    (hfields : Reading.Keeps n (fun d k => IdsBelow d.ids k) fields) :
    Reading.Keeps n (fun i k => IdsBelow i.ids k) (bodyOf place members schema fields) := by
  unfold bodyOf
  split
  · refine Reading.keeps_bind alone_keeps fun _ _ _ _ => ?_
    refine Reading.keeps_bind enumValues_keeps fun _ _ _ _ => ?_
    exact Reading.keeps_pure fun _ _ id hid => absurd hid List.not_mem_nil
  · split
    · refine Reading.keeps_bind alone_keeps fun _ _ hk _ => ?_
      refine Reading.keeps_bind (hschema.mono hk) fun d _ _ hd => ?_
      exact Reading.keeps_pure hd
    · exact Reading.keeps_bind hfields fun d _ _ hd => Reading.keeps_pure hd

theorem candidatesBelow_singleton {id : InstanceId} {k : Nat} (h : id.index < k) :
    CandidatesBelow [.nested id] k := by
  refine ⟨List.cons_ne_nil _ _, fun id' hid' => ?_⟩
  rw [List.mem_singleton.1 hid']
  exact h

theorem objectCandidates_keeps {schema fields : Reading Definition} (place : String)
    (members : Json.Members) (hscope : ScopeBelow scope n)
    (hschema : Reading.Keeps n (fun d k => IdsBelow d.ids k) schema)
    (hfields : Reading.Keeps n (fun d k => IdsBelow d.ids k) fields) :
    Reading.Keeps n CandidatesBelow (objectCandidates scope place members schema fields) := by
  unfold objectCandidates
  split
  · refine Reading.keeps_bind alone_keeps fun _ k hk _ => ?_
    split
    · split
      · next id hid =>
          exact Reading.keeps_pure fun j hj =>
            candidatesBelow_singleton ((hscope.mono (Nat.le_trans hk hj)) _ _ hid)
      · exact Reading.keeps_throw fun _ => DocumentError.noConfusion
    · exact keeps_refuse _ _
  · split
    · refine Reading.keeps_bind (bodyOf_keeps place members hschema hfields) fun i k _ hi => ?_
      refine Reading.keeps_bind (Reading.keeps_add (hi k (Nat.le_refl k))) fun id j _ hid => ?_
      exact Reading.keeps_pure fun m hm => candidatesBelow_singleton (hid m hm)
    · exact keeps_refuse _ _

theorem kind?_ne_nested {name : String} {candidate : Candidate} (h : kind? name = some candidate) :
    candidate.id? = none := by
  unfold kind? at h
  split at h <;> cases h <;> rfl

mutual

/-- A type specification comes out as at least one candidate. -/
theorem readCandidates_keeps (place : String) (j : Json) :
    ∀ {n : Nat}, ScopeBelow scope n →
      Reading.Keeps n CandidatesBelow (readCandidates scope place j) := by
  intro n hscope
  cases j with
  | text name =>
      rw [readCandidates]
      split
      · next candidate hkind =>
          refine Reading.keeps_pure fun k _ => ⟨List.cons_ne_nil _ _, fun id hid => ?_⟩
          simp [kind?_ne_nested hkind] at hid
      · exact Reading.keeps_throw fun _ => DocumentError.noConfusion
  | list items =>
      have harms := readArms_keeps place items 0 hscope
      rw [readCandidates]
      cases items with
      | nil =>
          intro r hr _
          exact ⟨.refl r, hr, fun _ => DocumentError.noConfusion⟩
      | cons arm rest =>
          exact harms.imp fun _ _ h => ⟨h.1 (List.cons_ne_nil arm rest), h.2⟩
  | object members =>
      rw [readCandidates]
      exact objectCandidates_keeps place members hscope (readSchema_keeps place members hscope)
        (readRules_keeps place {} members hscope (fun k _ id hid => absurd hid List.not_mem_nil))
  | null => exact keeps_refuse _ _
  | boolean b => exact keeps_refuse _ _
  | number m => exact keeps_refuse _ _

theorem readArms_keeps (place : String) (items : List Json) (i : Nat) :
    ∀ {n : Nat}, ScopeBelow scope n →
      Reading.Keeps n (fun candidates k =>
          (items ≠ [] → candidates ≠ []) ∧ IdsBelow (candidates.filterMap Candidate.id?) k)
        (readArms scope place i items) := by
  intro n hscope
  cases items with
  | nil =>
      rw [readArms]
      exact Reading.keeps_pure fun k _ => ⟨fun h => absurd rfl h, fun id hid => absurd hid List.not_mem_nil⟩
  | cons arm rest =>
      rw [readArms]
      -- the bound grows with every arm; what was good below the old one stays good
      refine Reading.keeps_bind (readCandidates_keeps _ arm hscope) fun first k hk hfirst => ?_
      refine Reading.keeps_bind (readArms_keeps place rest (i + 1) (hscope.mono hk))
        fun others j hj hothers => ?_
      refine Reading.keeps_pure fun m hm => ⟨fun _ => ?_, ?_⟩
      · exact List.append_ne_nil_of_left_ne_nil (hfirst k (Nat.le_refl k)).1 _
      · rw [List.filterMap_append]
        intro id hid
        rcases List.mem_append.1 hid with hid | hid
        · exact (hfirst m (Nat.le_trans hj hm)).2 id hid
        · exact (hothers m hm).2 id hid

theorem readSchema_keeps (place : String) (members : List (String × Json)) :
    ∀ {n : Nat}, ScopeBelow scope n →
      Reading.Keeps n (fun d k => IdsBelow d.ids k) (readSchema scope place members) := by
  intro n hscope
  cases members with
  | nil => rw [readSchema]; exact keeps_refuse _ _
  | cons entry rest =>
      obtain ⟨key, value⟩ := entry
      have hrest := readSchema_keeps place rest hscope
      by_cases hkey : key = schemaKey
      · cases value with
        | object rules =>
            simp only [readSchema, if_pos hkey]
            exact readRules_keeps place {} rules hscope
              (fun k _ id hid => absurd hid List.not_mem_nil)
        | null => simp only [readSchema, if_pos hkey]; exact keeps_refuse _ _
        | boolean b => simp only [readSchema, if_pos hkey]; exact keeps_refuse _ _
        | number m => simp only [readSchema, if_pos hkey]; exact keeps_refuse _ _
        | text s => simp only [readSchema, if_pos hkey]; exact keeps_refuse _ _
        | list items => simp only [readSchema, if_pos hkey]; exact keeps_refuse _ _
      · cases value <;> simpa only [readSchema, if_neg hkey] using hrest

theorem readType_keeps (place : String) (j : Json) :
    ∀ {n : Nat}, ScopeBelow scope n →
      Reading.Keeps n CandidatesBelow (readType scope place j) := by
  intro n hscope
  cases j with
  | object members => rw [readType]; exact readTypeMember_keeps place members hscope
  | null => exact keeps_refuse _ _
  | boolean b => exact keeps_refuse _ _
  | number m => exact keeps_refuse _ _
  | text s => exact keeps_refuse _ _
  | list items => exact keeps_refuse _ _

theorem readTypeMember_keeps (place : String) (members : List (String × Json)) :
    ∀ {n : Nat}, ScopeBelow scope n →
      Reading.Keeps n CandidatesBelow (readTypeMember scope place members) := by
  intro n hscope
  cases members with
  | nil => rw [readTypeMember]; exact keeps_refuse _ _
  | cons entry rest =>
      obtain ⟨key, value⟩ := entry
      rw [readTypeMember]
      split
      · exact readCandidates_keeps _ value hscope
      · exact readTypeMember_keeps place rest hscope

theorem readRules_keeps (place : String) (d : Definition) (members : List (String × Json)) :
    ∀ {n : Nat}, ScopeBelow scope n → (∀ k, n ≤ k → IdsBelow d.ids k) →
      Reading.Keeps n (fun d k => IdsBelow d.ids k) (readRules scope place d members) := by
  intro n hscope hd
  cases members with
  | nil => rw [readRules]; exact Reading.keeps_pure hd
  | cons entry rest =>
      obtain ⟨path, value⟩ := entry
      rw [readRules]
      refine Reading.keeps_bind (ruleOf_keeps _ value (readType_keeps _ value hscope)
        (readCandidates_keeps _ value hscope)) fun rule k hk hrule => ?_
      refine readRules_keeps place (d.insert path rule) rest (hscope.mono hk) fun j hj id hid => ?_
      rcases Definition.mem_ids_insert hid with hid | hid
      · exact hrule j hj id hid
      · exact hd j (Nat.le_trans hk hj) id hid

end

/-- **Reading a body** only adds instances to a closed registry and leaves it closed; the instance that
    the body describes points to what is there, and no refusal is one by the registry. -/
theorem read_keeps (place : String) (j : Json) (hscope : ScopeBelow scope n) :
    Reading.Keeps n (fun i k => IdsBelow i.ids k) (read scope place j) := by
  cases j with
  | object members =>
      exact bodyOf_keeps place members (readSchema_keeps place members hscope)
        (readRules_keeps place {} members hscope fun _ _ _ hid => absurd hid List.not_mem_nil)
  | null => exact keeps_refuse _ _
  | boolean b => exact keeps_refuse _ _
  | number m => exact keeps_refuse _ _
  | text s => exact keeps_refuse _ _
  | list items => exact keeps_refuse _ _

end Body

end SchemaTyping
