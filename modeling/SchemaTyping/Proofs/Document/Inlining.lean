import SchemaTyping.Proofs.Document.Phases

set_option autoImplicit false

/-! # The ids of inline bodies

Every type specification with an inline body gets an instance of its own. `Inlines` lists the ids of these
instances for a part of a body: one for each inline body in it, wherever it stands, in the order in which
they end, so those of the bodies inside another come before it. A reference has none, however often its
target is named.

Reading a body hands out exactly the ids of its inline bodies, one after the other (`Body.read_adds`), and
so does reading all bodies of a document (`Loader.inlinesAll_of_fill`). The places of the bodies
themselves were taken before. -/

namespace SchemaTyping

/-! ## The relation -/

/-- A part of a body with what it has become. The rules of an object are declared one after the other, so
    there is a definition before and one after. -/
inductive Part where
  | spec (j : Json) (candidates : List Candidate)
  | arms (items : List Json) (candidates : List Candidate)
  | rule (j : Json) (rule : Rule)
  | rules (d : Definition) (members : Json.Members) (d' : Definition)
  | body (j : Json) (i : Instance)

/-- The ids of the inline bodies in a part. `held?` looks up their instances. -/
inductive Inlines (held? : InstanceId → Option Instance) : Part → List InstanceId → Prop where
  | kind {name : String} {candidate : Candidate} (known : Body.kind? name = some candidate) :
      Inlines held? (.spec (.text name) [candidate]) []
  | reference {members : Json.Members} {target : String} {id : InstanceId}
      (names : members.get? Body.refKey = some (.text target)) :
      Inlines held? (.spec (.object members) [.nested id]) []
  /-- An inline body has the id that its candidate points to, after those of the bodies in it. -/
  | inline {members : Json.Members} {i : Instance} {id : InstanceId} {ids : List InstanceId}
      (noTarget : members.get? Body.refKey = none)
      (special : members.has Body.schemaKey ∨ members.has Body.valuesKey)
      (held : held? id = some i) (inner : Inlines held? (.body (.object members) i) ids) :
      Inlines held? (.spec (.object members) [.nested id]) (ids ++ [id])
  | alternation {items : List Json} {candidates : List Candidate} {ids : List InstanceId}
      (arms : Inlines held? (.arms items candidates) ids) :
      Inlines held? (.spec (.list items) candidates) ids
  | noArms : Inlines held? (.arms [] []) []
  | arm {arm : Json} {rest : List Json} {first others : List Candidate} {ids ids' : List InstanceId}
      (inFirst : Inlines held? (.spec arm first) ids) (inOthers : Inlines held? (.arms rest others) ids') :
      Inlines held? (.arms (arm :: rest) (first ++ others)) (ids ++ ids')
  | full {members : Json.Members} {spec : Json} {rule : Rule} {ids : List InstanceId}
      (isFull : Body.isFullRule members) (type : members.get? "type" = some spec)
      (inSpec : Inlines held? (.spec spec rule.candidates) ids) :
      Inlines held? (.rule (.object members) rule) ids
  | bare {value : Json} {rule : Rule} {ids : List InstanceId}
      (notFull : ∀ members, value = .object members → ¬ Body.isFullRule members)
      (inSpec : Inlines held? (.spec value rule.candidates) ids) : Inlines held? (.rule value rule) ids
  | noRules {d : Definition} : Inlines held? (.rules d [] d) []
  | declared {d d' : Definition} {path : String} {value : Json} {rest : Json.Members} {rule : Rule}
      {ids ids' : List InstanceId} (inFirst : Inlines held? (.rule value rule) ids)
      (inOthers : Inlines held? (.rules (d.insert path rule) rest d') ids') :
      Inlines held? (.rules d ((path, value) :: rest) d') (ids ++ ids')
  | values {members : Json.Members} {listed : List EnumValue} (holder : members.has Body.valuesKey) :
      Inlines held? (.body (.object members) (.values listed)) []
  | schema {members rules : Json.Members} {d : Definition} {ids : List InstanceId}
      (noHolder : members.get? Body.valuesKey = none)
      (inner : members.get? Body.schemaKey = some (.object rules))
      (inRules : Inlines held? (.rules {} rules d) ids) :
      Inlines held? (.body (.object members) (.schema d)) ids
  | fields {members : Json.Members} {d : Definition} {ids : List InstanceId}
      (noHolder : members.get? Body.valuesKey = none) (noSchema : members.get? Body.schemaKey = none)
      (inRules : Inlines held? (.rules {} members d) ids) :
      Inlines held? (.body (.object members) (.schema d)) ids

/-- Inline bodies keep their ids as long as their instances are kept. -/
theorem Inlines.mono {held? kept? : InstanceId → Option Instance} {part : Part} {ids : List InstanceId}
    (h : Inlines held? part ids) (hkept : ∀ id i, held? id = some i → kept? id = some i) :
    Inlines kept? part ids := by
  induction h with
  | kind known => exact .kind known
  | reference names => exact .reference names
  | inline noTarget special held _ ih => exact .inline noTarget special (hkept _ _ held) ih
  | alternation _ ih => exact .alternation ih
  | noArms => exact .noArms
  | arm _ _ ihFirst ihOthers => exact .arm ihFirst ihOthers
  | full isFull type _ ih => exact .full isFull type ih
  | bare notFull _ ih => exact .bare notFull ih
  | noRules => exact .noRules
  | declared _ _ ihFirst ihOthers => exact .declared ihFirst ihOthers
  | values holder => exact .values holder
  | schema noHolder inner _ ih => exact .schema noHolder inner ih
  | fields noHolder noSchema _ ih => exact .fields noHolder noSchema ih

/-! ## Composing steps -/

/-- On a registry with at least `n` instances the step only adds instances, and the ids that it hands out
    are good for its result, in every registry that keeps the instances from `n` on. -/
structure Reading.Adds {α : Type} (n : Nat) (good : Registry → List InstanceId → α → Prop)
    (m : Reading α) : Prop where
  ok : ∀ {r r' : Registry} {a : α}, n ≤ r.instances.length → exec m r = (.ok a, r') →
    r.Extends r' ∧ ∀ s, r'.KeptFrom n s → good s (r.newIds r') a

theorem Registry.KeptFrom.of_extends {n : Nat} {r r' s : Registry} (hext : r.Extends r')
    (h : r'.KeptFrom n s) : r.KeptFrom n s := by
  intro id hid hhas
  rw [h id hid (hext.has hhas)]
  exact hext.instance?_eq hhas

namespace Reading

variable {α β : Type} {n : Nat} {good : Registry → List InstanceId → α → Prop}
variable {goodAfter : Registry → List InstanceId → β → Prop}

theorem adds_pure {a : α} (h : ∀ s, good s [] a) : Adds n good (pure a) where
  ok := fun _ hrun => by
    cases hrun
    refine ⟨.refl _, fun s _ => ?_⟩
    rw [Registry.newIds_of_length_eq rfl]
    exact h s

theorem adds_throw (e : DocumentError) : Adds n good (throw e : Reading α) where
  ok := fun _ hrun => by cases hrun

theorem adds_liftM {x : Except DocumentError α} (h : ∀ a, x = .ok a → ∀ s, good s [] a) :
    Adds n good (liftM x : Reading α) := by
  cases x with
  | ok a => exact adds_pure (h a rfl)
  | error e => exact adds_throw e

/-- What the second step does need only be known for results that the first one can have. -/
theorem adds_bind_of {m : Reading α} {f : α → Reading β} (hm : Adds n good m)
    (hf : ∀ {r a r'}, exec m r = (.ok a, r') →
      Adds n (fun s ids b => ∀ before, good s before a → goodAfter s (before ++ ids) b) (f a)) :
    Adds n goodAfter (m >>= f) where
  ok := fun hn hrun => by
    obtain ⟨a, r₁, ha, hb⟩ := exec_bind_eq_ok.1 hrun
    obtain ⟨hext, hgood⟩ := hm.ok hn ha
    obtain ⟨hext', hgood'⟩ := (hf ha).ok (Nat.le_trans hn hext.length_le) hb
    refine ⟨hext.trans hext', fun s hs => ?_⟩
    rw [Registry.newIds_append hext.length_le hext'.length_le]
    exact hgood' s hs _ (hgood s (hs.of_extends hext'))

theorem adds_bind {m : Reading α} {f : α → Reading β} (hm : Adds n good m)
    (hf : ∀ a, Adds n (fun s ids b => ∀ before, good s before a → goodAfter s (before ++ ids) b) (f a)) :
    Adds n goodAfter (m >>= f) := adds_bind_of hm fun {_ a _} _ => hf a

theorem Adds.imp {m : Reading α} {good' : Registry → List InstanceId → α → Prop} (hm : Adds n good m)
    (h : ∀ s ids a, good s ids a → good' s ids a) : Adds n good' m where
  ok := fun hn hrun => (hm.ok hn hrun).imp_right fun hgood s hs => h s _ _ (hgood s hs)

/-- The one step that hands out an id. -/
theorem adds_add (i : Instance) :
    Adds n (fun s ids id => ids = [id] ∧ s.instance? id = some i)
      (modifyGet fun registry => ((registry.add i).2, (registry.add i).1) : Reading InstanceId) where
  ok := fun {r r' _} hn hrun => by
    rw [exec_modifyGet] at hrun
    cases hrun
    refine ⟨r.extends_add i, fun s hs => ⟨r.newIds_add i, (hs _ hn (r.has_add_snd i)).trans ?_⟩⟩
    simp [Registry.instance?, Registry.add]

end Reading

/-! ## Readers -/

namespace Body

open Reading

variable {scope : Scope} {n : Nat}

theorem refuse_adds {α : Type} {good : Registry → List InstanceId → α → Prop} (place : String)
    (o : Objection) : Adds n good (liftM (refuse place o : Except DocumentError α) : Reading α) :=
  adds_throw _

theorem alone_adds (place : String) (members : Json.Members) (key : String) :
    Adds n (fun _ ids _ => ids = []) (liftM (alone place members key) : Reading Unit) :=
  adds_liftM fun _ _ _ => rfl

theorem bareRule_adds (candidates : List Candidate) :
    Adds n (fun _ ids (rule : Rule) => ids = [] ∧ rule.candidates = candidates)
      (liftM (bareRule candidates)) := by
  cases candidates with
  | nil => exact adds_throw _
  | cons first rest =>
      refine adds_liftM fun rule h s => ?_
      cases h
      exact ⟨rfl, rfl⟩

theorem fullRule_adds {good : Registry → List InstanceId → List Candidate → Prop}
    {type : Reading (List Candidate)} (place : String) (members : Json.Members)
    (htype : Adds n good type) :
    Adds n (fun s ids rule => good s ids rule.candidates) (fullRule scope place members type) := by
  have hrest : Adds n (fun s ids (rule : Rule) => good s ids rule.candidates)
      (do
        let rule ← bareRule (← type)
        let complete : Except DocumentError Rule := members.foldlM (readAttribute scope place) rule
        complete) := by
    refine adds_bind htype fun candidates => ?_
    refine adds_bind (bareRule_adds candidates) fun rule => ?_
    refine adds_liftM fun rule' h s none hrule before hgood => ?_
    obtain ⟨rfl, rfl⟩ := hrule
    simpa [foldlM_readAttribute_eq_ok h] using hgood
  unfold fullRule
  dsimp only
  split
  · have hrefuse : Adds n (fun _ ids _ => ids = [])
        (liftM (refuse place .typeMissing : Except _ Unit)) := refuse_adds place .typeMissing
    refine adds_bind hrefuse fun _ => hrest.imp fun s ids rule hrule before hnone => ?_
    obtain rfl := hnone
    exact hrule
  · exact hrest

theorem ruleOf_adds {type spec : Reading (List Candidate)} (place : String) (value : Json)
    (htype : Adds n (fun s ids candidates => ∃ members inner, value = .object members ∧
      Table.get? "type" members = some inner ∧
      Inlines s.instance? (.spec inner candidates) ids) type)
    (hspec : Adds n (fun s ids candidates => Inlines s.instance? (.spec value candidates) ids) spec) :
    Adds n (fun s ids rule => Inlines s.instance? (.rule value rule) ids)
      (ruleOf scope place value type spec) := by
  have hbare (hnot : ∀ members, value = .object members → ¬ isFullRule members) :
      Adds n (fun s ids rule => Inlines s.instance? (.rule value rule) ids)
        (do bareRule (← spec)) := by
    refine adds_bind hspec fun candidates => ?_
    refine (bareRule_adds candidates).imp fun s ids rule hrule before hgood => ?_
    obtain ⟨rfl, hcandidates⟩ := hrule
    rw [List.append_nil]
    exact .bare hnot (hcandidates ▸ hgood)
  unfold ruleOf
  split
  · next members =>
      split
      · next hfull =>
          refine (fullRule_adds place members htype).imp fun s ids rule hrule => ?_
          obtain ⟨members', inner, heq, hinner, hinlines⟩ := hrule
          cases heq
          exact .full hfull hinner hinlines
      · next hfull =>
          refine hbare fun members' heq => ?_
          cases heq
          exact hfull
  · next hobject => exact hbare fun members heq => absurd heq (hobject members)

theorem bodyOf_adds {schema fields : Reading Definition} (place : String) (members : Json.Members)
    (hschema : Adds n (fun s ids d => ∃ rules, members.get? schemaKey = some (.object rules) ∧
      Inlines s.instance? (.rules {} rules d) ids) schema)
    (hfields : Adds n (fun s ids d => Inlines s.instance? (.rules {} members d) ids) fields) :
    Adds n (fun s ids i => Inlines s.instance? (.body (.object members) i) ids)
      (bodyOf place members schema fields) := by
  unfold bodyOf
  split
  · next inner hinner =>
      refine adds_bind (alone_adds place members valuesKey) fun _ => ?_
      have hlisted : Adds n (fun _ ids _ => ids = [])
          (liftM (enumValues place inner) : Reading (List EnumValue)) :=
        adds_liftM fun _ _ _ => rfl
      refine adds_bind hlisted fun listed => adds_pure fun s none hnone before hbefore => ?_
      obtain rfl := hnone
      obtain rfl := hbefore
      exact .values (by simp [Table.has, hinner])
  · next hvalues =>
      split
      · refine adds_bind (alone_adds place members schemaKey) fun _ => ?_
        refine adds_bind hschema fun d => adds_pure fun s ids hd before hbefore => ?_
        obtain ⟨rules, hrules, hinlines⟩ := hd
        obtain rfl := hbefore
        simpa using Inlines.schema hvalues hrules hinlines
      · next hbare =>
          refine adds_bind hfields fun d => adds_pure fun s ids hd => ?_
          have hnone : members.get? schemaKey = none :=
            Option.isNone_iff_eq_none.1 (by simpa [Table.has] using hbare)
          simpa using Inlines.fields hvalues hnone hd

theorem objectCandidates_adds {schema fields : Reading Definition} (place : String)
    (members : Json.Members)
    (hschema : Adds n (fun s ids d => ∃ rules, members.get? schemaKey = some (.object rules) ∧
      Inlines s.instance? (.rules {} rules d) ids) schema)
    (hfields : Adds n (fun s ids d => Inlines s.instance? (.rules {} members d) ids) fields) :
    Adds n (fun s ids candidates => Inlines s.instance? (.spec (.object members) candidates) ids)
      (objectCandidates scope place members schema fields) := by
  unfold objectCandidates
  split
  · next target htarget =>
      refine adds_bind (alone_adds _ _ _) fun _ => ?_
      split
      · split
        · refine adds_pure fun s none hnone => ?_
          obtain rfl := hnone
          exact .reference htarget
        · exact adds_throw _
      · exact refuse_adds _ _
  · next htarget =>
      split
      · next hspecial =>
          refine adds_bind (bodyOf_adds place members hschema hfields) fun i => ?_
          refine adds_bind (adds_add i) fun id => adds_pure fun s added hadded before hi => ?_
          obtain ⟨rfl, hheld⟩ := hadded
          simpa using Inlines.inline htarget (by simpa using hspecial) hheld hi
      · exact refuse_adds _ _

mutual

/-- **Reading a type specification** hands out the ids of its inline bodies. -/
theorem readCandidates_adds (place : String) (j : Json) :
    Adds n (fun s ids candidates => Inlines s.instance? (.spec j candidates) ids)
      (readCandidates scope place j) := by
  cases j with
  | text name =>
      rw [readCandidates]
      split
      · next candidate hkind => exact adds_pure fun _ => .kind hkind
      · exact adds_throw _
  | list items =>
      have harms := readArms_adds place items 0
      rw [readCandidates]
      cases items with
      | nil => exact adds_throw _
      | cons arm rest => exact harms.imp fun _ _ _ h => .alternation h
  | object members =>
      rw [readCandidates]
      exact objectCandidates_adds place members (readSchema_adds place members)
        (readRules_adds place {} members)
  | null => exact refuse_adds _ _
  | boolean b => exact refuse_adds _ _
  | number m => exact refuse_adds _ _

theorem readArms_adds (place : String) (items : List Json) (i : Nat) :
    Adds n (fun s ids candidates => Inlines s.instance? (.arms items candidates) ids)
      (readArms scope place i items) := by
  cases items with
  | nil =>
      rw [readArms]
      exact adds_pure fun _ => .noArms
  | cons arm rest =>
      rw [readArms]
      refine adds_bind (readCandidates_adds _ arm) fun first => ?_
      refine adds_bind (readArms_adds place rest (i + 1)) fun others => ?_
      refine adds_pure fun s ids hothers before hfirst => ?_
      rw [List.append_nil]
      exact .arm hfirst hothers

theorem readSchema_adds (place : String) (members : List (String × Json)) :
    Adds n (fun s ids d => ∃ rules, Table.get? schemaKey members = some (.object rules) ∧
      Inlines s.instance? (.rules {} rules d) ids) (readSchema scope place members) := by
  cases members with
  | nil =>
      rw [readSchema]
      exact refuse_adds _ _
  | cons entry rest =>
      obtain ⟨key, value⟩ := entry
      have hrest := readSchema_adds place rest
      by_cases hkey : key = schemaKey
      · cases value with
        | object rules =>
            simp only [readSchema, if_pos hkey]
            refine (readRules_adds place {} rules).imp fun s ids d hd => ⟨rules, ?_, hd⟩
            rw [Table.get?, if_pos hkey]
        | null => simp only [readSchema, if_pos hkey]; exact refuse_adds _ _
        | boolean b => simp only [readSchema, if_pos hkey]; exact refuse_adds _ _
        | number m => simp only [readSchema, if_pos hkey]; exact refuse_adds _ _
        | text s => simp only [readSchema, if_pos hkey]; exact refuse_adds _ _
        | list items => simp only [readSchema, if_pos hkey]; exact refuse_adds _ _
      · simp only [Table.get?, if_neg hkey]
        cases value <;> simpa only [readSchema, if_neg hkey] using hrest

theorem readType_adds (place : String) (j : Json) :
    Adds n (fun s ids candidates => ∃ members inner, j = .object members ∧
      Table.get? "type" members = some inner ∧ Inlines s.instance? (.spec inner candidates) ids)
      (readType scope place j) := by
  cases j with
  | object members =>
      rw [readType]
      refine (readTypeMember_adds place members).imp fun s ids candidates hmember => ?_
      obtain ⟨inner, hinner, hinlines⟩ := hmember
      exact ⟨members, inner, rfl, hinner, hinlines⟩
  | null => exact refuse_adds _ _
  | boolean b => exact refuse_adds _ _
  | number m => exact refuse_adds _ _
  | text s => exact refuse_adds _ _
  | list items => exact refuse_adds _ _

theorem readTypeMember_adds (place : String) (members : List (String × Json)) :
    Adds n (fun s ids candidates => ∃ inner, Table.get? "type" members = some inner ∧
      Inlines s.instance? (.spec inner candidates) ids) (readTypeMember scope place members) := by
  cases members with
  | nil =>
      rw [readTypeMember]
      exact refuse_adds _ _
  | cons entry rest =>
      obtain ⟨key, value⟩ := entry
      rw [readTypeMember]
      split
      · next hkey =>
          refine (readCandidates_adds _ value).imp fun s ids candidates h => ⟨value, ?_, h⟩
          rw [Table.get?, if_pos hkey]
      · next hkey =>
          simp only [Table.get?, if_neg hkey]
          exact readTypeMember_adds place rest

theorem readRules_adds (place : String) (d : Definition) (members : List (String × Json)) :
    Adds n (fun s ids d' => Inlines s.instance? (.rules d members d') ids)
      (readRules scope place d members) := by
  cases members with
  | nil =>
      rw [readRules]
      exact adds_pure fun _ => .noRules
  | cons entry rest =>
      obtain ⟨path, value⟩ := entry
      rw [readRules]
      refine adds_bind (ruleOf_adds _ value (readType_adds _ value) (readCandidates_adds _ value))
        fun rule => ?_
      refine (readRules_adds place (d.insert path rule) rest).imp fun s ids d' hrest before hrule => ?_
      exact .declared hrule hrest

end

/-- **Reading a body** hands out the ids of the inline bodies in it, in turn, and no others. -/
theorem read_adds (scope : Scope) (place : String) (j : Json) :
    Adds n (fun s ids i => Inlines s.instance? (.body j i) ids) (read scope place j) := by
  cases j with
  | object members =>
      exact bodyOf_adds place members (readSchema_adds place members) (readRules_adds place {} members)
  | null => exact refuse_adds _ _
  | boolean b => exact refuse_adds _ _
  | number m => exact refuse_adds _ _
  | text s => exact refuse_adds _ _
  | list items => exact refuse_adds _ _

end Body

/-! ## Documents -/

/-- The ids of the inline bodies in bodies that are instances already, those of one body after those of
    the bodies before it. -/
inductive InlinesAll (held? : InstanceId → Option Instance) :
    List (InstanceId × Json) → List InstanceId → Prop where
  | nil : InlinesAll held? [] []
  | cons {id : InstanceId} {body : Json} {i : Instance} {rest : List (InstanceId × Json)}
      {ids ids' : List InstanceId} (held : held? id = some i)
      (inBody : Inlines held? (.body body i) ids) (inOthers : InlinesAll held? rest ids') :
      InlinesAll held? ((id, body) :: rest) (ids ++ ids')

theorem InlinesAll.mono {held? kept? : InstanceId → Option Instance} {bodies : List (InstanceId × Json)}
    {ids : List InstanceId} (h : InlinesAll held? bodies ids)
    (hkept : ∀ id i, held? id = some i → kept? id = some i) : InlinesAll kept? bodies ids := by
  induction h with
  | nil => exact .nil
  | cons held inBody _ ih => exact .cons (hkept _ _ held) (inBody.mono hkept) ih

namespace Loader

/-- Every body of a table with the id that its name refers to. -/
def Placed (refer : String → Option InstanceId) (t : Table Json)
    (bodies : List (InstanceId × Json)) : Prop :=
  List.Forall₂ (fun entry placed => refer entry.1 = some placed.1 ∧ placed.2 = entry.2) t bodies

/-- The ids of the inline bodies in a document that the loader has loaded. -/
def InlinesOf (l : Loader) (d : Document) (ids : List InstanceId) : Prop :=
  ∃ instances schemas, Placed (fun name => l.instances.get? name) d.instances instances ∧
    Placed l.registry.get? (ownBodies d.schemas) schemas ∧
    InlinesAll l.registry.instance? (instances ++ schemas) ids

/-- A body with the id of the place that it waits for. -/
def Pending.placed (p : Pending) : InstanceId × Json := (p.id, p.body)

/-- **Reading all bodies** hands out the ids of the inline bodies in them, in turn, and no others. -/
theorem inlinesAll_of_fill {scope : Scope} {pending : List Pending} {r s : Registry} {n : Nat}
    (hn : n ≤ r.instances.length) (hbelow : ∀ p ∈ pending, p.id.index < n)
    (hdistinct : (pending.map Pending.id).Nodup) (h : fill scope pending r = .ok s) :
    InlinesAll s.instance? (pending.map Pending.placed) (r.newIds s) := by
  induction pending generalizing r with
  | nil =>
      cases h
      rw [Registry.newIds_of_length_eq rfl]
      exact .nil
  | cons p rest ih =>
      obtain ⟨i, read, hread, hheld, hkept, hn', hrest⟩ := fill_cons_kept hn hbelow hdistinct h
      obtain ⟨hext, hinlines⟩ := (Body.read_adds _ _ _).ok hn hread
      have hothers := ih hn' (fun q hq => hbelow q (List.mem_cons_of_mem _ hq))
        (List.nodup_cons.1 hdistinct).2 hrest
      have hsame : (read.put p.id i).newIds s = read.newIds s := by simp [Registry.newIds]
      have hle : read.instances.length ≤ s.instances.length := by
        simpa using (fill_keeps hrest).2.1
      rw [Registry.newIds_append hext.length_le hle, ← hsame]
      exact .cons hheld (hinlines s hkept) hothers

theorem placed_waiting {refer : String → Option InstanceId} (part : String) (k : Nat) {t : Table Json}
    (h : ∀ entry ∈ numbered k t, refer entry.1 = some entry.2) :
    Placed refer t ((waiting part k t).map Pending.placed) := by
  induction t generalizing k with
  | nil => exact .nil
  | cons entry rest ih =>
      obtain ⟨name, body⟩ := entry
      rw [numbered_cons] at h
      obtain ⟨hfirst, hrest⟩ := List.forall_mem_cons.1 h
      exact .cons ⟨hfirst, rfl⟩ (ih (k + 1) hrest)

end Loader

end SchemaTyping
