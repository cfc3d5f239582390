import Mathlib.Logic.Relation
import SchemaTyping.Proofs.Document.Lockstep
import SchemaTyping.Proofs.Document.Targets

set_option autoImplicit false

/-! # Objects that carry nothing else

An object with one of the keys `$ref`, `$schema` and `$values` is crowded if it has another key. `Reaches`
leads from a value to a part of it that is read in turn, and a value can only be read if all its parts can
(`Body.Reaches.accepted`), so a crowded object anywhere below the body of a schema or an instance makes the
document fail. The body itself is tested for `$schema` and `$values` only: one that has a `$ref` next to other
keys is a definition with a rule of that name, the same as if it stood under `$schema`
(`Loader.Reachable.feed_crowded`). -/

namespace SchemaTyping

/-! ## Steps that can succeed -/

namespace Reading

variable {α β : Type}

/-- On some registry the step is not refused. -/
def Succeeds (m : Reading α) : Prop := ∃ r a r', exec m r = (.ok a, r')

theorem succeeds_bind {m : Reading α} {f : α → Reading β} (h : Succeeds (m >>= f)) :
    Succeeds m ∧ ∃ a, Succeeds (f a) := by
  obtain ⟨r, b, r', hrun⟩ := h
  obtain ⟨a, r₁, ha, hb⟩ := exec_bind_eq_ok.1 hrun
  exact ⟨⟨r, a, r₁, ha⟩, a, r₁, b, r', hb⟩

theorem succeeds_liftM {x : Except DocumentError α} (h : Succeeds (liftM x)) : ∃ a, x = .ok a := by
  obtain ⟨r, a, r', hrun⟩ := h
  exact ⟨a, congrArg Prod.fst hrun⟩

end Reading

namespace Body

open Reading

/-! ## Parts of a body -/

/-- Is the value an object with a special key and another key? -/
def crowded : Json → Bool
  | .object members =>
    specialKeys.any fun key => Table.has key members && members.any fun member => member.1 ≠ key
  | _ => false

/-- Is the value an object that is a definition when it is read as a body? -/
def isBare : Json → Bool
  | .object members => !Table.has schemaKey members && !Table.has valuesKey members
  | _ => false

/-- What a value in a document is read as. -/
inductive Role where
  | body
  | rule
  | spec

/-- The second value is read in its role when the first one is read in its own. -/
inductive Reaches : Role × Json → Role × Json → Prop where
  | field {members : Json.Members} {path : String} {value : Json} (bare : isBare (.object members))
      (declared : (path, value) ∈ members) : Reaches (.body, .object members) (.rule, value)
  | inner {members rules : Json.Members} {path : String} {value : Json}
      (noHolder : members.get? valuesKey = none) (schema : members.get? schemaKey = some (.object rules))
      (declared : (path, value) ∈ rules) : Reaches (.body, .object members) (.rule, value)
  | type {members : Json.Members} {spec : Json} (isFull : isFullRule members)
      (type : members.get? "type" = some spec) : Reaches (.rule, .object members) (.spec, spec)
  | bareRule {value : Json} (notFull : ∀ members, value = .object members → ¬ isFullRule members) :
      Reaches (.rule, value) (.spec, value)
  | arm {items : List Json} {arm : Json} (listed : arm ∈ items) : Reaches (.spec, .list items) (.spec, arm)
  | inline {members : Json.Members} (noTarget : members.get? refKey = none)
      (special : members.has schemaKey ∨ members.has valuesKey) :
      Reaches (.spec, .object members) (.body, .object members)

/-- Reading the value in its role succeeds, at some place and on some registry. -/
def Accepted (scope : Scope) : Role × Json → Prop
  | (.body, j) => ∃ place, Succeeds (read scope place j)
  | (.rule, j) => ∃ place, Succeeds (readRule scope place j)
  | (.spec, j) => ∃ place, Succeeds (readCandidates scope place j)

variable {scope : Scope}

theorem eq_of_alone {place key : String} {members : Json.Members} (h : alone place members key = .ok ()) :
    ∀ member ∈ members, member.1 = key := by
  unfold alone at h
  split at h
  · next hnone =>
      intro member hmember
      simpa using List.find?_eq_none.1 hnone member hmember
  · cases h

/-- An object that is alone with one key is not crowded. -/
theorem crowded_of_alone {place key : String} {members : Json.Members}
    (h : alone place members key = .ok ()) : crowded (.object members) = false := by
  have hall := eq_of_alone h
  simp only [crowded, List.any_eq_false, Bool.and_eq_true, not_and]
  intro special _ hhas hother
  obtain ⟨other, hmember, hne⟩ := List.any_eq_true.1 hother
  obtain ⟨member, hmem, rfl⟩ := List.mem_map.1 (Table.has_iff.1 hhas)
  simp [hall other hmember, hall member hmem] at hne

theorem crowded_of_isFullRule {members : Json.Members} (h : isFullRule members) :
    crowded (.object members) = false := by
  simp only [isFullRule, List.all_eq_true, Bool.not_eq_true'] at h
  simp only [crowded, List.any_eq_false]
  intro key hkey
  simp [h key hkey]

/-- An accepted body is no crowded object, unless it is tested for neither of its special keys. -/
theorem succeeds_bodyOf {place : String} {members : Json.Members} {schema fields : Reading Definition}
    (h : Succeeds (bodyOf place members schema fields)) :
    (members.has valuesKey ∧ crowded (.object members) = false) ∨
      (members.get? valuesKey = none ∧ members.has schemaKey ∧ crowded (.object members) = false ∧
        Succeeds schema) ∨
      (isBare (.object members) ∧ Succeeds fields) := by
  unfold bodyOf at h
  split at h
  · next values hvalues =>
      obtain ⟨halone, -⟩ := succeeds_bind h
      obtain ⟨_, halone⟩ := succeeds_liftM halone
      exact Or.inl ⟨by simp [Table.has, hvalues], crowded_of_alone halone⟩
  · next hvalues =>
      split at h
      · next hschema =>
          obtain ⟨halone, _, h⟩ := succeeds_bind h
          obtain ⟨_, halone⟩ := succeeds_liftM halone
          exact Or.inr (Or.inl ⟨hvalues, hschema, crowded_of_alone halone,
            (succeeds_bind h).1⟩)
      · next hschema =>
          refine Or.inr (Or.inr ⟨?_, (succeeds_bind h).1⟩)
          simpa [isBare, Table.has, hvalues] using hschema

/-- An accepted type specification that is an object is not crowded, and a body if it is no reference. -/
theorem succeeds_objectCandidates {place : String} {members : Json.Members}
    {schema fields : Reading Definition} (h : Succeeds (objectCandidates scope place members schema fields)) :
    crowded (.object members) = false ∧
      (members.get? refKey = none → Succeeds (bodyOf place members schema fields)) := by
  unfold objectCandidates at h
  split at h
  · next target htarget =>
      obtain ⟨halone, -⟩ := succeeds_bind h
      obtain ⟨_, halone⟩ := succeeds_liftM halone
      exact ⟨crowded_of_alone halone, fun hnone => by simp [htarget] at hnone⟩
  · next htarget =>
      split at h
      · next hspecial =>
          have hbody := (succeeds_bind h).1
          refine ⟨?_, fun _ => hbody⟩
          rcases succeeds_bodyOf hbody with ⟨-, hfree⟩ | ⟨-, -, hfree, -⟩ | ⟨hbare, -⟩
          · exact hfree
          · exact hfree
          · simp [isBare] at hbare
            simp [hbare] at hspecial
      · obtain ⟨_, hrefused⟩ := succeeds_liftM h
        cases hrefused

theorem readSchema_of_get? (place : String) {members rules : Json.Members}
    (h : members.get? schemaKey = some (.object rules)) :
    readSchema scope place members = readRules scope place {} rules := by
  induction members with
  | nil => cases h
  | cons entry rest ih =>
      obtain ⟨key, value⟩ := entry
      by_cases hkey : key = schemaKey
      · rw [Table.get?, if_pos hkey] at h
        cases h
        simp only [readSchema, if_pos hkey]
      · rw [Table.get?, if_neg hkey] at h
        cases value <;> simpa only [readSchema, if_neg hkey] using ih h

theorem readTypeMember_of_get? (place : String) {members : Json.Members} {spec : Json}
    (h : members.get? "type" = some spec) :
    readTypeMember scope place members = readCandidates scope (atKey place "type") spec := by
  induction members with
  | nil => cases h
  | cons entry rest ih =>
      obtain ⟨key, value⟩ := entry
      rw [readTypeMember]
      by_cases hkey : key = "type"
      · rw [Table.get?, if_pos hkey] at h
        cases h
        rw [if_pos hkey]
      · rw [Table.get?, if_neg hkey] at h
        rw [if_neg hkey, ih h]

theorem accepted_of_readRules {place path : String} {d : Definition} {members : Json.Members} {value : Json}
    (h : Succeeds (readRules scope place d members)) (hmem : (path, value) ∈ members) :
    Accepted scope (.rule, value) := by
  induction members generalizing d with
  | nil => cases hmem
  | cons entry rest ih =>
      obtain ⟨key, first⟩ := entry
      rw [readRules] at h
      obtain ⟨hfirst, rule, hrest⟩ := succeeds_bind h
      rcases List.mem_cons.1 hmem with heq | hmem
      · cases heq
        exact ⟨_, hfirst⟩
      · exact ih hrest hmem

theorem accepted_of_readArms {place : String} {i : Nat} {items : List Json} {arm : Json}
    (h : Succeeds (readArms scope place i items)) (hmem : arm ∈ items) : Accepted scope (.spec, arm) := by
  induction items generalizing i with
  | nil => cases hmem
  | cons first rest ih =>
      rw [readArms] at h
      obtain ⟨hfirst, candidates, hrest⟩ := succeeds_bind h
      rcases List.mem_cons.1 hmem with rfl | hmem
      · exact ⟨_, hfirst⟩
      · exact ih (succeeds_bind hrest).1 hmem

theorem succeeds_fullRule {place : String} {members : Json.Members} {type : Reading (List Candidate)}
    (h : Succeeds (fullRule scope place members type)) : Succeeds type := by
  unfold fullRule at h
  dsimp only at h
  split at h
  · obtain ⟨hrefused, -⟩ := succeeds_bind h
    obtain ⟨_, hrefused⟩ := succeeds_liftM hrefused
    cases hrefused
  · exact (succeeds_bind h).1

/-- What is accepted has only accepted parts. -/
theorem Reaches.accepted {whole part : Role × Json} (hreach : Reaches whole part)
    (h : Accepted scope whole) : Accepted scope part := by
  cases hreach with
  | field bare declared =>
      obtain ⟨place, h⟩ := h
      rcases succeeds_bodyOf h with ⟨hvalues, -⟩ | ⟨-, hschema, -⟩ | ⟨-, hfields⟩
      · simp [isBare, hvalues] at bare
      · simp [isBare, hschema] at bare
      · exact accepted_of_readRules hfields declared
  | inner noHolder schema declared =>
      obtain ⟨place, h⟩ := h
      rcases succeeds_bodyOf h with ⟨hvalues, -⟩ | ⟨-, -, -, hrules⟩ | ⟨hbare, -⟩
      · simp [Table.has, noHolder] at hvalues
      · rw [readSchema_of_get? place schema] at hrules
        exact accepted_of_readRules hrules declared
      · simp [isBare, Table.has, schema] at hbare
  | type isFull type =>
      obtain ⟨place, h⟩ := h
      simp only [readRule, ruleOf, if_pos isFull] at h
      have htype := succeeds_fullRule h
      rw [readType, readTypeMember_of_get? place type] at htype
      exact ⟨_, htype⟩
  | bareRule notFull =>
      obtain ⟨place, h⟩ := h
      unfold readRule ruleOf at h
      split at h
      · next members =>
          rw [if_neg (notFull members rfl)] at h
          exact ⟨place, (succeeds_bind h).1⟩
      · exact ⟨place, (succeeds_bind h).1⟩
  | arm listed =>
      obtain ⟨place, h⟩ := h
      rw [readCandidates] at h
      split at h
      · exact accepted_of_readArms (succeeds_bind h).2.choose_spec listed
      · exact accepted_of_readArms h listed
  | inline noTarget special =>
      obtain ⟨place, h⟩ := h
      rw [readCandidates] at h
      exact ⟨place, (succeeds_objectCandidates h).2 noTarget⟩

theorem Accepted.of_reaches {whole part : Role × Json} (hreach : Relation.ReflTransGen Reaches whole part)
    (h : Accepted scope whole) : Accepted scope part := by
  induction hreach with
  | refl => exact h
  | tail _ hstep ih => exact hstep.accepted ih

/-- **Only definitions at the top are crowded**: nothing else that can be read is. -/
theorem Accepted.crowded {role : Role} {v : Json} (h : Accepted scope (role, v)) (hcrowded : crowded v) :
    role = .body ∧ isBare v := by
  cases v with
  | object members =>
      cases role with
      | body =>
          obtain ⟨place, h⟩ := h
          rcases succeeds_bodyOf h with ⟨-, hfree⟩ | ⟨-, -, hfree, -⟩ | ⟨hbare, -⟩
          · simp [hfree] at hcrowded
          · simp [hfree] at hcrowded
          · exact ⟨rfl, hbare⟩
      | rule =>
          obtain ⟨place, h⟩ := h
          simp only [readRule, ruleOf] at h
          split at h
          · next hfull => simp [crowded_of_isFullRule hfull] at hcrowded
          · have hspec := (succeeds_bind h).1
            rw [readCandidates] at hspec
            simp [(succeeds_objectCandidates hspec).1] at hcrowded
      | spec =>
          obtain ⟨place, h⟩ := h
          rw [readCandidates] at h
          simp [(succeeds_objectCandidates h).1] at hcrowded
  | _ => cases hcrowded

/-- No part of another name for an instance is crowded. -/
theorem crowded_of_alias {body : Json} {target : String} (halias : aliasTarget? body = some target)
    {role : Role} {v : Json} (hreach : Relation.ReflTransGen Reaches (.body, body) (role, v)) :
    crowded v = false := by
  have hbody : body = .object [(refKey, .text target)] := by
    unfold aliasTarget? at halias
    split at halias
    · split at halias
      · next hkey => cases halias; rw [hkey]
      · cases halias
    · cases halias
  -- such a body leads to nothing but the text that is its target
  have hparts : ∀ part, Relation.ReflTransGen Reaches (.body, body) part →
      part = (.body, body) ∨ ∃ name, part.2 = .text name := by
    intro part hreach
    induction hreach with
    | refl => exact Or.inl rfl
    | tail _ hstep ih =>
        rcases ih with rfl | ⟨name, hname⟩
        · subst hbody
          cases hstep with
          | field _ declared => exact Or.inr ⟨target, by simp_all⟩
          | inner _ schema _ => cases schema
        · cases hstep <;> simp_all
  rcases hparts _ hreach with heq | ⟨name, hname⟩
  · cases heq
    simp [hbody, crowded, specialKeys, Table.has, Table.get?]
  · obtain rfl : v = .text name := hname
    rfl

/-! ## Crowded definitions -/

/-- A crowded definition put under the key for definitions. -/
def spelledOut (j : Json) : Json :=
  if crowded j && isBare j then .object [(schemaKey, j)] else j

theorem aliasTarget?_spelledOut (j : Json) : aliasTarget? (spelledOut j) = aliasTarget? j := by
  unfold spelledOut
  split
  · next h =>
      cases j with
      | object members =>
          cases halias : aliasTarget? (.object members) with
          | none => rfl
          | some target => simp [crowded_of_alias halias .refl] at h
      | _ => cases h
  · rfl

theorem read_spelledOut (scope : Scope) (place : String) (j : Json) :
    read scope place (spelledOut j) = read scope place j := by
  unfold spelledOut
  split
  · next h =>
      cases j with
      | object members =>
          simp only [isBare, Bool.and_eq_true, Bool.not_eq_true'] at h
          obtain ⟨-, hschema, hvalues⟩ := h
          have hnone : Table.get? valuesKey members = none := by simpa [Table.has] using hvalues
          -- the one member is found under its key, with nothing beside it
          have halone : alone place [(schemaKey, Json.object members)] schemaKey = .ok () := by
            simp [alone]
          have hrules : readSchema scope place [(schemaKey, Json.object members)]
              = readRules scope place {} members :=
            readSchema_of_get? place (by simp [Table.get?])
          have hnotValues : Table.get? valuesKey [(schemaKey, Json.object members)] = none := rfl
          have hisSchema : Table.has schemaKey [(schemaKey, Json.object members)] = true := rfl
          simp only [read, bodyOf, hnotValues, hisSchema, if_true, hrules, halone, hnone, hschema]
          rfl
      | _ => simp [isBare] at h
  · rfl

end Body

/-- A schema or an instance of the document is this value in this role, or leads to it. -/
def Document.Reads (d : Document) (part : Body.Role × Json) : Prop :=
  ∃ name body, ((name, body) ∈ d.schemas ∨ (name, body) ∈ d.instances) ∧
    Relation.ReflTransGen Body.Reaches (.body, body) part

namespace Loader

variable {l l' : Loader} {d : Document}

theorem accepted_of_fill {scope : Scope} {pending : List Pending} {r s : Registry}
    (h : fill scope pending r = .ok s) {p : Pending} (hp : p ∈ pending) :
    Body.Accepted scope (.body, p.body) := by
  induction pending generalizing r with
  | nil => cases hp
  | cons first rest ih =>
      obtain ⟨i, read, hread, -, hrest⟩ := fill_cons_eq_ok.1 h
      rcases List.mem_cons.1 hp with rfl | hp
      · exact ⟨_, r, i, read, hread⟩
      · exact ih hrest hp

/-- Every body that is not only another name waits to be read. -/
theorem exists_pendingOf {name : String} {body : Json}
    (hbody : (name, body) ∈ d.schemas ∨ (name, body) ∈ d.instances) (hown : aliasTarget? body = none) :
    ∃ p ∈ l.pendingOf d, p.body = body := by
  rcases hbody with hschema | hinstance
  · obtain ⟨p, hp, hsame, -⟩ := exists_waiting "schemas"
      (l.registry.instances.length + d.instances.length) (mem_ownBodies.2 ⟨hschema, hown⟩)
    exact ⟨p, List.mem_append_right _ hp, hsame⟩
  · obtain ⟨p, hp, hsame, -⟩ := exists_waiting "instances" l.registry.instances.length hinstance
    exact ⟨p, List.mem_append_left _ hp, hsame⟩

/-! ## Bodies that are read alike -/

/-- A pending body replaced by another one. -/
def Pending.mapBody (f : Json → Json) (p : Pending) : Pending := { p with body := f p.body }

section

variable {f : Json → Json}

theorem stageInstances_mapValues (t : Table Json) :
    stageInstances (t.mapValues f) = (do return (← stageInstances t).map (Pending.mapBody f)) := by
  induction t with
  | nil => simp [Table.mapValues, stageInstances]
  | cons entry rest ih =>
      obtain ⟨name, body⟩ := entry
      rw [Table.mapValues_cons, stageInstances, stageInstances, ih]
      simp only [bind_assoc]
      refine bind_congr fun l => ?_
      split
      · rfl
      · simp [Pending.mapBody]

theorem reserveBodies_mapValues (halias : ∀ j, aliasTarget? (f j) = aliasTarget? j) (t : Table Json) :
    reserveBodies (t.mapValues f) = reserveBodies t := by
  induction t with
  | nil => rfl
  | cons entry rest ih =>
      obtain ⟨name, body⟩ := entry
      rw [Table.mapValues_cons, reserveBodies, reserveBodies, ih, halias]

theorem stageSchemas_mapValues (halias : ∀ j, aliasTarget? (f j) = aliasTarget? j)
    (bodies : Table InstanceId) (t : Table Json) :
    stageSchemas bodies (t.mapValues f)
      = (do return (← stageSchemas bodies t).map (Pending.mapBody f)) := by
  induction t with
  | nil => simp [Table.mapValues, stageSchemas]
  | cons entry rest ih =>
      obtain ⟨name, body⟩ := entry
      rw [Table.mapValues_cons, stageSchemas, stageSchemas, ih]
      simp only [schemaId, halias, bind_assoc]
      cases aliasTarget? body with
      | some target =>
          simp only [bind_assoc]
          refine bind_congr fun l => ?_
          split
          · simp
          · rfl
      | none =>
          dsimp only
          split
          · simp [Pending.mapBody]
          · rfl

theorem readBodies_mapBody (hread : ∀ scope place j, Body.read scope place (f j) = Body.read scope place j)
    (pending : List Pending) : readBodies (pending.map (Pending.mapBody f)) = readBodies pending := by
  induction pending with
  | nil => rfl
  | cons p rest ih => simp only [List.map_cons, readBodies, ih, Pending.mapBody, hread]

theorem load_mapBodies (halias : ∀ j, aliasTarget? (f j) = aliasTarget? j)
    (hread : ∀ scope place j, Body.read scope place (f j) = Body.read scope place j) (l : Loader)
    (d : Document) : l.load (d.mapBodies f) = l.load d := by
  have hstage : stage (d.mapBodies f) = stage d := by
    simp only [stage, Document.mapBodies, stageInstances_mapValues, reserveBodies_mapValues halias,
      stageSchemas_mapValues halias, bind_assoc, pure_bind, ← List.map_append, readBodies_mapBody hread]
  rw [load_eq_exec, load_eq_exec, hstage]

end

/-! ## Documents -/

variable {source : Source}

/-- **Special keys stand alone.** When a document has a crowded object at any place where a body, a rule or
    a type specification is read, it is not loaded, unless that object is a schema or an instance of the
    document with neither `$schema` nor `$values`. Those are definitions: the document is loaded just as if
    they stood under `$schema`. -/
theorem Reachable.feed_crowded (h : l.Reachable) (hdocument : source.document = .ok d) :
    (∀ role v, d.Reads (role, v) → Body.crowded v → ¬ (role = .body ∧ Body.isBare v) →
      ∃ e, (l.feed source).1 = .error e) ∧
      l.feed source = l.load (d.mapBodies Body.spelledOut) := by
  have hfeed := feed_of_document_eq_ok (l := l) hdocument
  rw [hfeed, load_mapBodies Body.aliasTarget?_spelledOut Body.read_spelledOut]
  refine ⟨?_, rfl⟩
  rintro role v ⟨name, body, hbody, hreach⟩ hcrowded hinner
  rcases hrun : l.load d with ⟨outcome, l'⟩
  cases outcome with
  | error e => exact ⟨e, rfl⟩
  | ok =>
      obtain ⟨-, -, ids, r, -, hr, -⟩ := (load_eq_ok h.sound (source.proper_of_document hdocument)).1 hrun
      cases halias : aliasTarget? body with
      | some target => simp [Body.crowded_of_alias halias hreach] at hcrowded
      | none =>
          obtain ⟨p, hp, rfl⟩ := exists_pendingOf (l := l) hbody halias
          have haccepted := (accepted_of_fill hr hp).of_reaches hreach
          exact absurd (haccepted.crowded hcrowded) hinner

/-- A rule that is a reference with an attribute beside it. -/
def attributedReference : Source :=
  .value (.object [("schemas", .object
      [("A", .object [("next", .object [(Body.refKey, .text "A"), ("optional", .boolean true)])])])])
    (by simp [Table.names, Body.refKey, Json.Proper.boolean])

theorem feed_attributedReference : ∃ e, (feed { options := {} } attributedReference).1 = .error e := by
  have hdocument : attributedReference.document = .ok _ := rfl
  obtain ⟨hrefused, -⟩ := (Reachable.start {}).feed_crowded hdocument
  exact hrefused .rule _ ⟨"A", _, Or.inl List.mem_cons_self, .single (.field rfl List.mem_cons_self)⟩ rfl
    (by simp)

/-- A schema that is a reference with another member beside it. -/
def crowdedSchema : Source :=
  .value (.object [("schemas", .object
      [("A", .object [(Body.refKey, .text "Number"), ("x", .text "String")])])])
    (by simp [Table.names, Body.refKey])

/-- It is loaded, with a rule named `$ref`. -/
theorem crowded_schema_is_loaded :
    ∃ d, crowdedSchema.document = .ok d ∧
      (∃ body, ("A", body) ∈ d.schemas ∧ Body.crowded body) ∧
      (feed { options := {} } crowdedSchema).1 = .ok () :=
  ⟨_, rfl, ⟨_, List.mem_cons_self, rfl⟩, by decide +kernel⟩

end Loader

end SchemaTyping
