import Mathlib.Data.List.Basic
import SchemaTyping.Proofs.Document.References
import SchemaTyping.Proofs.Document.Staging

set_option autoImplicit false

/-! # What each phase of staging leaves

The phases of `Loader.stage` in closed form. The instances of a document and its schemas with bodies of
their own get the next ids in their order (`numbered`); then every schema is assigned an id, that of its
body or that of its target (`Loader.Assigned`); then the bodies that wait are read and put in their places
(`fill`). Each phase succeeds under exactly the conditions stated here, and `Loader.exec_stage_eq_ok` puts
them together. -/

namespace SchemaTyping

/-- The registry with so many ids taken. -/
def Registry.reserveMany (r : Registry) (k : Nat) : Registry :=
  { r with instances := r.instances ++ List.replicate k (.schema {}) }

@[simp] theorem Registry.length_reserveMany (r : Registry) (k : Nat) :
    (r.reserveMany k).instances.length = r.instances.length + k := by
  simp [Registry.reserveMany]

theorem Registry.extends_reserveMany (r : Registry) (k : Nat) : r.Extends (r.reserveMany k) :=
  ⟨rfl, List.prefix_append _ _⟩

/-- What an id holds when it has been taken. -/
theorem Registry.instance?_reserveMany (r : Registry) {k : Nat} {id : InstanceId}
    (hid : r.instances.length ≤ id.index) (hhas : (r.reserveMany k).Has id) :
    (r.reserveMany k).instance? id = some (.schema {}) := by
  have hlt : id.index < (r.reserveMany k).instances.length := hhas
  rw [length_reserveMany] at hlt
  rw [instance?, reserveMany, List.getElem?_append_right hid, List.getElem?_replicate, if_pos (by omega)]

namespace Loader

/-! ## Ids in order -/

/-- The names of a table with the ids from `k` on. -/
def numbered (k : Nat) (t : Table Json) : Table InstanceId :=
  (t.zipIdx k).map fun (entry, i) => (entry.1, ⟨i⟩)

/-- The bodies of a part of a document, waiting for the ids from `k` on. -/
def waiting (part : String) (k : Nat) (t : Table Json) : List Pending :=
  (t.zipIdx k).map fun (entry, i) => ⟨Body.atKey part entry.1, ⟨i⟩, entry.2⟩

/-- The schemas that have a body of their own. -/
def ownBodies (t : Table Json) : Table Json := t.filter fun entry => (aliasTarget? entry.2).isNone

variable {l l' : Loader}

theorem numbered_cons (k : Nat) (name : String) (body : Json) (t : Table Json) :
    numbered k ((name, body) :: t) = (name, ⟨k⟩) :: numbered (k + 1) t := rfl

theorem waiting_cons (part : String) (k : Nat) (name : String) (body : Json) (t : Table Json) :
    waiting part k ((name, body) :: t)
      = ⟨Body.atKey part name, ⟨k⟩, body⟩ :: waiting part (k + 1) t := rfl

theorem numbered_append (k : Nat) (t u : Table Json) :
    numbered k (t ++ u) = numbered k t ++ numbered (k + t.length) u := by
  rw [numbered, List.zipIdx_append, List.map_append]
  rfl

theorem waiting_append (part : String) (k : Nat) (t u : Table Json) :
    waiting part k (t ++ u) = waiting part k t ++ waiting part (k + t.length) u := by
  rw [waiting, List.zipIdx_append, List.map_append]
  rfl

theorem names_numbered (k : Nat) (t : Table Json) : (numbered k t).names = t.names := by
  induction t generalizing k with
  | nil => rfl
  | cons entry rest ih =>
      obtain ⟨name, body⟩ := entry
      exact congrArg (name :: ·) (ih (k + 1))

theorem index_of_mem_numbered {k : Nat} {t : Table Json} {entry : String × InstanceId}
    (h : entry ∈ numbered k t) : k ≤ entry.2.index ∧ entry.2.index < k + t.length := by
  obtain ⟨entry, hentry, rfl⟩ := List.mem_map.1 h
  exact ⟨List.le_snd_of_mem_zipIdx hentry, List.snd_lt_add_of_mem_zipIdx hentry⟩

theorem ids_waiting (part : String) (k : Nat) (t : Table Json) :
    (waiting part k t).map Pending.id = (List.range' k t.length).map InstanceId.mk := by
  induction t generalizing k with
  | nil => rfl
  | cons entry rest ih =>
      obtain ⟨name, body⟩ := entry
      exact congrArg (_ :: ·) (ih (k + 1))

/-- Every body waits for the id of its name. -/
theorem exists_waiting (part : String) (k : Nat) {t : Table Json} {name : String} {body : Json}
    (h : (name, body) ∈ t) :
    ∃ p ∈ waiting part k t, p.body = body ∧ (name, p.id) ∈ numbered k t := by
  induction t generalizing k with
  | nil => cases h
  | cons entry rest ih =>
      obtain ⟨other, otherBody⟩ := entry
      rw [waiting_cons, numbered_cons]
      rcases List.mem_cons.1 h with heq | hmem
      · cases heq
        exact ⟨_, List.mem_cons_self, rfl, List.mem_cons_self⟩
      · obtain ⟨p, hp, hbody, hid⟩ := ih (k + 1) hmem
        exact ⟨p, List.mem_cons_of_mem _ hp, hbody, List.mem_cons_of_mem _ hid⟩

theorem mem_ownBodies {t : Table Json} {name : String} {body : Json} :
    (name, body) ∈ ownBodies t ↔ (name, body) ∈ t ∧ aliasTarget? body = none := by
  rw [ownBodies, List.mem_filter, Option.isNone_iff_eq_none]

theorem ownBodies_append (t u : Table Json) : ownBodies (t ++ u) = ownBodies t ++ ownBodies u :=
  List.filter_append ..

theorem nodup_names_ownBodies {t : Table Json} (ht : t.names.Nodup) : (ownBodies t).names.Nodup :=
  ht.sublist (List.filter_sublist.map _)

theorem ownBodies_cons_of_some {name target : String} {body : Json} (t : Table Json)
    (h : aliasTarget? body = some target) : ownBodies ((name, body) :: t) = ownBodies t := by
  simp [ownBodies, h]

theorem ownBodies_cons_of_none {name : String} {body : Json} (t : Table Json)
    (h : aliasTarget? body = none) :
    ownBodies ((name, body) :: t) = (name, body) :: ownBodies t := by
  simp [ownBodies, h]

/-! ## The first phase -/

/-- The loader with these further instances of the document. -/
def withInstances (l : Loader) (t : Table Json) : Loader :=
  { l with
    registry := l.registry.reserveMany t.length
    stagedInstances := l.stagedInstances ++ numbered l.registry.instances.length t }

theorem withInstances_cons {name : String} (h : name ∉ l.stagedInstances.names) (body : Json)
    (t : Table Json) : (l.withInstance name).withInstances t = l.withInstances ((name, body) :: t) := by
  simp [withInstances, withInstance, reserved, Table.insert_eq_append _ h, numbered_cons,
    Registry.reserve, Registry.add, Registry.reserveMany, List.replicate_succ, nextId]

/-- The instances of a document are refused only for a name that an earlier document gave. -/
theorem exec_stageInstances_eq_ok {t : Table Json} {pending : List Pending}
    (hnew : (l.stagedInstances.names ++ t.names).Nodup) :
    exec (stageInstances t) l = (.ok pending, l') ↔
      (∀ name ∈ t.names, name ∉ l.instances.names) ∧
        pending = waiting "instances" l.registry.instances.length t ∧ l' = l.withInstances t := by
  induction t generalizing l pending with
  | nil =>
      have hsame : l.withInstances [] = l := by simp [withInstances, numbered, Registry.reserveMany]
      simp [stageInstances, waiting, Table.names, hsame, eq_comm]
  | cons entry rest ih =>
      obtain ⟨name, body⟩ := entry
      have hout : name ∉ l.stagedInstances.names := fun hmem =>
        (List.nodup_append.1 hnew).2.2 name hmem name List.mem_cons_self rfl
      have hnames : (l.withInstance name).stagedInstances.names ++ Table.names rest
          = l.stagedInstances.names ++ Table.names ((name, body) :: rest) := by
        rw [show (l.withInstance name).stagedInstances.names = l.stagedInstances.names ++ [name] from
          (Table.names_insert _ _ _).trans (if_neg hout)]
        exact List.append_assoc _ _ _
      have hlength : (l.withInstance name).registry.instances.length
          = l.registry.instances.length + 1 := by
        simp [withInstance, reserved, Registry.reserve, Registry.add]
      have hsplit : (∀ other ∈ Table.names ((name, body) :: rest), other ∉ l.instances.names) ↔
          name ∉ l.instances.names ∧ ∀ other ∈ Table.names rest, other ∉ l.instances.names :=
        List.forall_mem_cons
      rw [exec_stageInstances_cons, hsplit]
      split
      · next hname =>
          have hmem : ¬ name ∉ l.instances.names := fun h => by simp [Table.has_eq_false_iff.2 h] at hname
          simp [hmem]
      · next hname =>
          have hmem : name ∉ l.instances.names := Table.has_eq_false_iff.1 (Bool.eq_false_iff.2 hname)
          rw [onOk_eq_ok, waiting_cons, ← withInstances_cons hout body rest]
          constructor
          · rintro ⟨others, hrun, rfl⟩
            obtain ⟨hrest, rfl, rfl⟩ := (ih (hnames ▸ hnew)).1 hrun
            exact ⟨⟨hmem, hrest⟩, by rw [hlength]; rfl, rfl⟩
          · rintro ⟨⟨-, hrest⟩, rfl, rfl⟩
            exact ⟨_, (ih (hnames ▸ hnew)).2 ⟨hrest, rfl, rfl⟩, by rw [hlength]; rfl⟩

/-- Ids for bodies are refused only for a name that the registry has. -/
theorem exec_reserveBodies_eq_ok {t : Table Json} {bodies : Table InstanceId} :
    exec (reserveBodies t) l = (.ok bodies, l') ↔
      (∀ name ∈ t.names, name ∉ l.registry.entries.names) ∧
        bodies = numbered l.registry.instances.length (ownBodies t) ∧
        l' = { l with registry := l.registry.reserveMany (ownBodies t).length } := by
  induction t generalizing l bodies with
  | nil => simp [reserveBodies, ownBodies, numbered, Table.names, Registry.reserveMany, eq_comm]
  | cons entry rest ih =>
      obtain ⟨name, body⟩ := entry
      have hsplit : (∀ other ∈ Table.names ((name, body) :: rest), other ∉ l.registry.entries.names) ↔
          name ∉ l.registry.entries.names ∧
            ∀ other ∈ Table.names rest, other ∉ l.registry.entries.names :=
        List.forall_mem_cons
      rw [exec_reserveBodies_cons, hsplit]
      split
      · next hname =>
          have hmem : ¬ name ∉ l.registry.entries.names := fun h => by
            simp [Registry.get?, Table.get?_eq_none_iff.2 h] at hname
          simp [hmem]
      · next hname =>
          have hmem : name ∉ l.registry.entries.names :=
            Table.has_eq_false_iff.1 (Bool.eq_false_iff.2 hname)
          cases halias : aliasTarget? body with
          | some target =>
              rw [if_pos Option.isSome_some, ih, ownBodies_cons_of_some rest halias]
              simp [hmem]
          | none =>
              have hlength : l.reserved.registry.instances.length
                  = l.registry.instances.length + 1 := by
                simp [reserved, Registry.reserve, Registry.add]
              have hregistry : l.reserved.registry.reserveMany (ownBodies rest).length
                  = l.registry.reserveMany ((ownBodies rest).length + 1) := by
                simp [reserved, Registry.reserve, Registry.add, Registry.reserveMany,
                  List.replicate_succ]
              rw [if_neg (by simp), onOk_eq_ok, ownBodies_cons_of_none rest halias, numbered_cons]
              simp only [ih, hlength, List.length_cons, hregistry]
              constructor
              · rintro ⟨others, ⟨hrest, rfl, rfl⟩, rfl⟩
                exact ⟨⟨hmem, hrest⟩, rfl, rfl⟩
              · rintro ⟨⟨-, hrest⟩, rfl, rfl⟩
                exact ⟨_, ⟨hrest, rfl, rfl⟩, rfl⟩

/-! ## The second phase -/

/-- The instance a name refers to when these schemas of the document are staged. -/
def seeing (l : Loader) (seen : Table InstanceId) (name : String) : Option InstanceId :=
  { l with stagedSchemas := seen }.target? name

/-- The id that a schema gets, from the ids taken for bodies and from what names refer to. -/
def idOf (bodies : Table InstanceId) (refer : String → Option InstanceId) (name : String)
    (body : Json) : Option InstanceId :=
  match aliasTarget? body with
  | some target => (bodies.get? target).or (refer target)
  | none => bodies.get? name

/-- The ids that schemas get one after the other, each seeing those before it. -/
inductive Assigned (bodies : Table InstanceId)
    (refer : Table InstanceId → String → Option InstanceId) :
    Table InstanceId → Table Json → Table InstanceId → Prop where
  | nil {seen : Table InstanceId} : Assigned bodies refer seen [] []
  | cons {seen ids : Table InstanceId} {name : String} {body : Json} {rest : Table Json}
      {id : InstanceId} (first : idOf bodies (refer seen) name body = some id)
      (others : Assigned bodies refer (seen ++ [(name, id)]) rest ids) :
      Assigned bodies refer seen ((name, body) :: rest) ((name, id) :: ids)

/-- The schemas with bodies of their own, waiting for the ids that were taken for them. -/
def pendingSchemas (bodies : Table InstanceId) (t : Table Json) : List Pending :=
  (ownBodies t).filterMap fun (name, body) =>
    (bodies.get? name).map fun id => ⟨Body.atKey "schemas" name, id, body⟩

section

variable {bodies seen ids : Table InstanceId}
variable {refer : Table InstanceId → String → Option InstanceId}

theorem Assigned.names {t : Table Json} (h : Assigned bodies refer seen t ids) :
    ids.names = t.names := by
  induction h with
  | nil => rfl
  | cons first others ih => exact congrArg (_ :: ·) ih

/-- The ids of a table are those that each of its schemas gets when it sees the ones before it. -/
theorem assigned_ofNames_iff {t : Table Json} {f : String → InstanceId} :
    Assigned bodies refer seen t (.ofNames t.names f) ↔
      ∀ (before : Table Json) name body after, t = before ++ (name, body) :: after →
        idOf bodies (refer (seen ++ .ofNames before.names f)) name body = some (f name) := by
  induction t generalizing seen with
  | nil =>
      refine ⟨fun _ before name body after hsplit => ?_, fun _ => .nil⟩
      exact absurd hsplit.symm (List.append_ne_nil_of_right_ne_nil before (List.cons_ne_nil _ _))
  | cons entry rest ih =>
      obtain ⟨name, body⟩ := entry
      have hseen (before : Table Json) :
          seen ++ Table.ofNames (Table.names ((name, body) :: before)) f
            = seen ++ [(name, f name)] ++ Table.ofNames before.names f :=
        (List.append_assoc seen [(name, f name)] _).symm
      constructor
      · intro h
        cases h with
        | cons first others =>
            rintro (_ | ⟨_, before⟩) other otherBody after hsplit
            · cases hsplit
              simpa [Table.ofNames, Table.names] using first
            · obtain ⟨rfl, hrest⟩ := List.cons.inj hsplit
              rw [hseen]
              exact ih.1 others before other otherBody after hrest
      · intro h
        refine .cons ?_ (ih.2 fun before other otherBody after hsplit => ?_)
        · simpa [Table.ofNames, Table.names] using h [] name body rest rfl
        · rw [← hseen]
          exact h _ other otherBody after (congrArg _ hsplit)

theorem Assigned.exists_ofNames {t : Table Json} (h : Assigned bodies refer seen t ids)
    (ht : t.names.Nodup) : ∃ f, ids = .ofNames t.names f := by
  rw [← h.names] at ht ⊢
  exact ⟨_, Table.eq_ofNames ht ⟨0⟩⟩

end

theorem pendingSchemas_cons (bodies : Table InstanceId) (entry : String × Json) (t : Table Json) :
    pendingSchemas bodies (entry :: t) = pendingSchemas bodies [entry] ++ pendingSchemas bodies t := by
  rw [pendingSchemas, show entry :: t = [entry] ++ t from rfl, ownBodies, List.filter_append,
    List.filterMap_append]
  rfl

theorem schemaIdIn_eq (bodies : Table InstanceId) (name : String) (body : Json) :
    l.schemaIdIn bodies (Body.atKey "schemas" name) name body =
      match idOf bodies (l.seeing l.stagedSchemas) name body with
      | some id => .ok (id, pendingSchemas bodies [(name, body)])
      | none => .error (.unknownRef (Body.atKey "schemas" name) ((aliasTarget? body).getD name)) := by
  unfold schemaIdIn idOf
  cases halias : aliasTarget? body with
  | some target =>
      have hnone : pendingSchemas bodies [(name, body)] = [] := by
        simp [pendingSchemas, ownBodies, halias]
      rw [hnone]
      rfl
  | none =>
      dsimp only
      cases hbody : bodies.get? name with
      | none => rfl
      | some id => simp [pendingSchemas, ownBodies, halias, hbody]

/-- The schemas with bodies of their own wait for the ids in their order. -/
theorem pendingSchemas_numbered (k : Nat) {t : Table Json} (ht : t.names.Nodup) :
    pendingSchemas (numbered k (ownBodies t)) t = waiting "schemas" k (ownBodies t) := by
  have hown := nodup_names_ownBodies ht
  unfold pendingSchemas
  generalize ownBodies t = own at hown
  induction own generalizing k with
  | nil => rfl
  | cons entry rest ih =>
      obtain ⟨name, body⟩ := entry
      obtain ⟨hname, hrest⟩ := List.nodup_cons.1 hown
      rw [waiting_cons, ← ih (k + 1) hrest, numbered_cons, List.filterMap_cons]
      have hfirst : Table.get? name ((name, (⟨k⟩ : InstanceId)) :: numbered (k + 1) rest) = some ⟨k⟩ :=
        if_pos rfl
      dsimp only
      rw [hfirst]
      refine congrArg (_ :: ·) (List.filterMap_congr fun entry hentry => ?_)
      have hne : name ≠ entry.1 := fun heq => hname (List.mem_map.2 ⟨entry, hentry, heq.symm⟩)
      rw [Table.get?, if_neg hne]

/-- A schema with a new name goes to the end, and the names that follow are still new. -/
theorem withSchema_of_nodup {name : String} {names : List String}
    (hnew : (l.stagedSchemas.names ++ name :: names).Nodup) (id : InstanceId) :
    l.withSchema name id = { l with stagedSchemas := l.stagedSchemas ++ [(name, id)] } ∧
      ((l.withSchema name id).stagedSchemas.names ++ names).Nodup := by
  have hout : name ∉ l.stagedSchemas.names := fun hmem =>
    (List.nodup_append.1 hnew).2.2 name hmem name List.mem_cons_self rfl
  have hinsert : l.withSchema name id
      = { l with stagedSchemas := l.stagedSchemas ++ [(name, id)] } := by
    rw [withSchema, Table.insert_eq_append _ hout]
  refine ⟨hinsert, ?_⟩
  rw [hinsert, Table.names_append, List.append_assoc]
  exact hnew

theorem exec_stageSchemas_eq_ok {bodies : Table InstanceId} {t : Table Json}
    {pending : List Pending} (hnew : (l.stagedSchemas.names ++ t.names).Nodup) :
    exec (stageSchemas bodies t) l = (.ok pending, l') ↔
      pending = pendingSchemas bodies t ∧ ∃ ids, Assigned bodies l.seeing l.stagedSchemas t ids ∧
        l' = { l with stagedSchemas := l.stagedSchemas ++ ids } := by
  induction t generalizing l pending with
  | nil =>
      constructor
      · intro h
        cases h
        exact ⟨rfl, [], .nil, by simp⟩
      · rintro ⟨rfl, ids, hids, rfl⟩
        cases hids
        simp [stageSchemas, pendingSchemas, ownBodies]
  | cons entry rest ih =>
      obtain ⟨name, body⟩ := entry
      rw [exec_stageSchemas_cons, schemaIdIn_eq, pendingSchemas_cons bodies (name, body) rest]
      cases hid : idOf bodies (l.seeing l.stagedSchemas) name body with
      | none =>
          constructor
          · intro h
            cases h
          · rintro ⟨-, ids, hids, -⟩
            cases hids with
            | cons first others => cases hid.symm.trans first
      | some id =>
          obtain ⟨hinsert, hrest⟩ := withSchema_of_nodup hnew id
          dsimp only
          rw [onOk_eq_ok]
          constructor
          · rintro ⟨others, hrun, rfl⟩
            obtain ⟨rfl, ids, hids, rfl⟩ := (ih hrest).1 hrun
            rw [hinsert] at hids ⊢
            exact ⟨rfl, (name, id) :: ids, .cons hid hids, by simp⟩
          · rintro ⟨rfl, ids, hids, rfl⟩
            cases hids with
            | cons first others =>
                cases hid.symm.trans first
                refine ⟨_, (ih hrest).2 ⟨rfl, ?_⟩, rfl⟩
                rw [hinsert]
                exact ⟨_, others, by simp⟩

/-- A schema is refused only if its target refers to nothing. -/
theorem exec_stageSchemas_eq_error {bodies : Table InstanceId} {t : Table Json} {e : DocumentError}
    (hnew : (l.stagedSchemas.names ++ t.names).Nodup)
    (h : (exec (stageSchemas bodies t) l).1 = .error e) :
    ∃ (before after : Table Json) (name : String) (body : Json) (ids : Table InstanceId),
      t = before ++ (name, body) :: after ∧
      Assigned bodies l.seeing l.stagedSchemas before ids ∧
      idOf bodies (l.seeing (l.stagedSchemas ++ ids)) name body = none ∧
      e = .unknownRef (Body.atKey "schemas" name) ((aliasTarget? body).getD name) := by
  induction t generalizing l with
  | nil => cases h
  | cons entry rest ih =>
      obtain ⟨name, body⟩ := entry
      rw [exec_stageSchemas_cons, schemaIdIn_eq] at h
      cases hid : idOf bodies (l.seeing l.stagedSchemas) name body with
      | none =>
          rw [hid] at h
          refine ⟨[], rest, name, body, [], rfl, .nil, by simpa using hid, ?_⟩
          exact (Except.error.inj h).symm
      | some id =>
          obtain ⟨hinsert, hrest⟩ := withSchema_of_nodup hnew id
          rw [hid] at h
          obtain ⟨before, after, other, otherBody, ids, rfl, hids, hnone, rfl⟩ :=
            ih hrest (onOk_eq_error.1 h)
          rw [hinsert] at hids hnone
          refine ⟨(name, body) :: before, after, other, otherBody, (name, id) :: ids, rfl,
            .cons hid hids, ?_, rfl⟩
          rwa [List.append_assoc] at hnone

/-! ## The third phase -/

/-- Read bodies in a scope and put each in its place. -/
def fill (scope : Scope) : List Pending → Registry → Except DocumentError Registry
  | [], r => .ok r
  | p :: rest, r =>
    match exec (Body.read scope p.place p.body) r with
    | (.error e, _) => .error e
    | (.ok i, read) =>
      match read.define p.id i with
      | .error e => .error (.registry e)
      | .ok defined => fill scope rest defined

theorem fill_cons_eq_ok {scope : Scope} {p : Pending} {rest : List Pending} {r s : Registry} :
    fill scope (p :: rest) r = .ok s ↔
      ∃ i read, exec (Body.read scope p.place p.body) r = (.ok i, read) ∧ read.Has p.id ∧
        fill scope rest (read.put p.id i) = .ok s := by
  rcases hrun : exec (Body.read scope p.place p.body) r with ⟨outcome, read⟩
  simp only [fill, hrun]
  cases outcome with
  | error e => simp
  | ok i =>
      by_cases hhas : read.Has p.id
      · simp only [Registry.define_of_has hhas]
        constructor
        · exact fun h => ⟨i, read, rfl, hhas, h⟩
        · rintro ⟨i', read', heq, -, h⟩
          cases heq
          exact h
      · have hout : ¬ p.id.index < read.instances.length := hhas
        simp only [Registry.define, if_neg hout]
        constructor
        · intro h
          cases h
        · rintro ⟨i', read', heq, hhas', -⟩
          cases heq
          exact absurd hhas' hhas

theorem scope_of_entries {r : Registry} (h : r.entries = l.registry.entries) :
    scope { l with registry := r } = l.scope := by
  have htarget : target? { l with registry := r } = l.target? :=
    funext fun name => by simp only [target?, Registry.get?, h]
  simp only [scope, htarget]

/-- Reading bodies in a loader changes the registry only. -/
theorem exec_readBodies (pending : List Pending) (l : Loader) :
    match fill l.scope pending l.registry with
    | .ok r => exec (readBodies pending) l = (.ok (), { l with registry := r })
    | .error e => (exec (readBodies pending) l).1 = .error e := by
  induction pending generalizing l with
  | nil => rfl
  | cons p rest ih =>
      rw [exec_readBodies_cons]
      unfold fill
      rcases hrun : exec (Body.read l.scope p.place p.body) l.registry with ⟨outcome, read⟩
      cases outcome with
      | error e => rfl
      | ok i =>
          obtain ⟨hext, -⟩ := (Body.read_gives _ p.place p.body).ok (Nat.zero_le _) hrun
          dsimp only
          cases hdefine : read.define p.id i with
          | error e => rfl
          | ok defined =>
              -- no name was given, so the next body is read in the same scope
              have hentries : defined.entries = l.registry.entries := by
                unfold Registry.define at hdefine
                split at hdefine
                · cases hdefine
                  exact hext.entries
                · cases hdefine
              have hrest := ih { l with registry := defined }
              rw [scope_of_entries hentries] at hrest
              exact hrest

theorem fill_keeps {scope : Scope} {pending : List Pending} {r s : Registry}
    (h : fill scope pending r = .ok s) :
    s.entries = r.entries ∧ r.instances.length ≤ s.instances.length ∧
      ∀ id, r.Has id → id ∉ pending.map Pending.id → s.instance? id = r.instance? id := by
  induction pending generalizing r with
  | nil =>
      cases h
      exact ⟨rfl, Nat.le_refl _, fun _ _ _ => rfl⟩
  | cons p rest ih =>
      obtain ⟨i, read, hread, -, hrest⟩ := fill_cons_eq_ok.1 h
      obtain ⟨hext, -⟩ := (Body.read_gives _ _ _).ok (Nat.zero_le _) hread
      obtain ⟨hentries, hle, hsame⟩ := ih hrest
      refine ⟨hentries.trans hext.entries, Nat.le_trans hext.length_le (by simpa using hle), ?_⟩
      intro id hid hnot
      rw [List.map_cons, List.mem_cons, not_or] at hnot
      rw [hsame id (Registry.has_put.2 (hext.has hid)) hnot.2, Registry.instance?_put_of_ne hnot.1,
        hext.instance?_eq hid]

/-- A body that has been read stays in its place, and so do the inline bodies in it: all places are below
    `n`, each is filled once, and what is added comes after them. -/
theorem fill_cons_kept {scope : Scope} {p : Pending} {rest : List Pending} {r s : Registry} {n : Nat}
    (hn : n ≤ r.instances.length) (hbelow : ∀ q ∈ p :: rest, q.id.index < n)
    (hdistinct : ((p :: rest).map Pending.id).Nodup) (h : fill scope (p :: rest) r = .ok s) :
    ∃ i read, exec (Body.read scope p.place p.body) r = (.ok i, read) ∧
      s.instance? p.id = some i ∧ read.KeptFrom n s ∧
      n ≤ (read.put p.id i).instances.length ∧ fill scope rest (read.put p.id i) = .ok s := by
  obtain ⟨i, read, hread, hhas, hrest⟩ := fill_cons_eq_ok.1 h
  obtain ⟨hext, -⟩ := (Body.read_gives _ _ _).ok hn hread
  obtain ⟨hnot, -⟩ := List.nodup_cons.1 hdistinct
  obtain ⟨-, -, hsame⟩ := fill_keeps hrest
  have hplaces {id : InstanceId} (hid : n ≤ id.index) : ∀ q ∈ p :: rest, id ≠ q.id := by
    rintro q hq rfl
    exact absurd (hbelow q hq) (Nat.not_lt.2 hid)
  refine ⟨i, read, hread, ?_, fun id hid hhas' => ?_, ?_, hrest⟩
  · rw [hsame p.id (Registry.has_put.2 hhas) hnot, Registry.instance?_put_self hhas]
  · have hother : id ∉ rest.map Pending.id := by
      intro hmem
      obtain ⟨q, hq, rfl⟩ := List.mem_map.1 hmem
      exact hplaces hid q (List.mem_cons_of_mem _ hq) rfl
    rw [hsame id (Registry.has_put.2 hhas') hother,
      Registry.instance?_put_of_ne (hplaces hid p List.mem_cons_self)]
  · rw [Registry.length_put]
    exact Nat.le_trans hn hext.length_le

/-- **Every body that waited is described by the instance in its place.** -/
theorem fill_describes {scope : Scope} {pending : List Pending} {r s : Registry} {n : Nat}
    (hn : n ≤ r.instances.length) (hbelow : ∀ p ∈ pending, p.id.index < n)
    (hdistinct : (pending.map Pending.id).Nodup) (h : fill scope pending r = .ok s) :
    ∀ p ∈ pending, ∃ i, s.instance? p.id = some i ∧ Describes s.instance? scope.target? p.body i := by
  induction pending generalizing r with
  | nil => exact fun p hp => absurd hp List.not_mem_nil
  | cons p rest ih =>
      obtain ⟨i, read, hread, hheld, hkept, hn', hrest⟩ := fill_cons_kept hn hbelow hdistinct h
      obtain ⟨-, hdescribes⟩ := (Body.read_gives _ _ _).ok hn hread
      have hothers : ∀ q ∈ rest, q.id.index < n := fun q hq => hbelow q (List.mem_cons_of_mem _ hq)
      intro q hq
      rcases List.mem_cons.1 hq with rfl | hq
      · exact ⟨i, hheld, hdescribes s hkept⟩
      · exact ih hn' hothers (List.nodup_cons.1 hdistinct).2 hrest q hq

/-- A name that is refused as undefined in a body refers to nothing. -/
theorem fill_eq_unknownRef {scope : Scope} {pending : List Pending} {r : Registry}
    {place name : String} (h : fill scope pending r = .error (.unknownRef place name)) :
    scope.target? name = none := by
  induction pending generalizing r with
  | nil => cases h
  | cons p rest ih =>
      have hread := Body.read_gives (n := 0) scope p.place p.body
      rcases hrun : exec (Body.read scope p.place p.body) r with ⟨outcome, read⟩
      simp only [fill, hrun] at h
      cases outcome with
      | error e => exact hread.undefined ((congrArg Prod.fst hrun).trans (congrArg _ (Except.error.inj h)))
      | ok i =>
          dsimp only at h
          cases hdefine : read.define p.id i with
          | error e => rw [hdefine] at h; cases h
          | ok defined =>
              rw [hdefine] at h
              exact ih h

/-! ## The whole document -/

/-- The loader when all ids of a document are taken. -/
def readyFor (l : Loader) (d : Document) : Loader :=
  { l.withInstances d.instances with
    registry := (l.withInstances d.instances).registry.reserveMany (ownBodies d.schemas).length }

/-- The ids taken for the schemas of a document that have bodies of their own. -/
def bodyIds (l : Loader) (d : Document) : Table InstanceId :=
  numbered (l.registry.instances.length + d.instances.length) (ownBodies d.schemas)

/-- The bodies of a document in the order in which they are read. -/
def pendingOf (l : Loader) (d : Document) : List Pending :=
  waiting "instances" l.registry.instances.length d.instances ++
    waiting "schemas" (l.registry.instances.length + d.instances.length) (ownBodies d.schemas)

/-- No earlier document gave a name of this one. -/
structure Unused (l : Loader) (d : Document) : Prop where
  schemas : ∀ name ∈ d.schemas.names, name ∉ l.registry.entries.names
  instances : ∀ name ∈ d.instances.names, name ∉ l.instances.names

/-- The loader when every schema of the document has its id. -/
def assigned (l : Loader) (d : Document) (ids : Table InstanceId) : Loader :=
  { l.readyFor d with stagedSchemas := ids }

variable {d : Document}

/-- The first phase of a document. -/
theorem exec_stageInstances_document (hl : l.Sound) (hinstances : d.instances.names.Nodup)
    {pending : List Pending} :
    exec (stageInstances d.instances) l = (.ok pending, l') ↔
      (∀ name ∈ d.instances.names, name ∉ l.instances.names) ∧
        pending = waiting "instances" l.registry.instances.length d.instances ∧
        l' = l.withInstances d.instances :=
  exec_stageInstances_eq_ok (by simpa [hl.stagedInstances, Table.names] using hinstances)

theorem exec_reserveBodies_document {bodies : Table InstanceId} :
    exec (reserveBodies d.schemas) (l.withInstances d.instances) = (.ok bodies, l') ↔
      (∀ name ∈ d.schemas.names, name ∉ l.registry.entries.names) ∧ bodies = l.bodyIds d ∧
        l' = l.readyFor d := by
  rw [exec_reserveBodies_eq_ok]
  have hlength : (l.withInstances d.instances).registry.instances.length
      = l.registry.instances.length + d.instances.length := l.registry.length_reserveMany _
  rw [hlength]
  rfl

/-- The second phase of a document. -/
theorem exec_stageSchemas_document (hl : l.Sound) (hschemas : d.schemas.names.Nodup)
    {pending : List Pending} :
    exec (stageSchemas (l.bodyIds d) d.schemas) (l.readyFor d) = (.ok pending, l') ↔
      pending = waiting "schemas" (l.registry.instances.length + d.instances.length)
        (ownBodies d.schemas) ∧
      ∃ ids, Assigned (l.bodyIds d) (l.readyFor d).seeing [] d.schemas ids ∧
        l' = l.assigned d ids := by
  have hempty : (l.readyFor d).stagedSchemas = [] := hl.stagedSchemas
  rw [exec_stageSchemas_eq_ok (by simpa [hempty, Table.names] using hschemas), hempty, bodyIds,
    pendingSchemas_numbered _ hschemas]
  rfl

/-- **Staging a document succeeds** exactly when its names are new, every schema is assigned an id and
    every body can be read, and this is the loader it leaves. -/
theorem exec_stage_eq_ok (hl : l.Sound) (hschemas : d.schemas.names.Nodup)
    (hinstances : d.instances.names.Nodup) :
    exec (stage d) l = (.ok (), l') ↔
      l.Unused d ∧ ∃ ids r, Assigned (l.bodyIds d) (l.readyFor d).seeing [] d.schemas ids ∧
        fill (l.assigned d ids).scope (l.pendingOf d) (l.readyFor d).registry = .ok r ∧
        l' = { l.assigned d ids with registry := r } := by
  unfold stage
  constructor
  · intro h
    obtain ⟨pendingInstances, l₁, hrun₁, h⟩ := exec_bind_eq_ok.1 h
    obtain ⟨bodies, l₂, hrun₂, h⟩ := exec_bind_eq_ok.1 h
    obtain ⟨pending, l₃, hrun₃, h⟩ := exec_bind_eq_ok.1 h
    obtain ⟨hnew, rfl, rfl⟩ := (exec_stageInstances_document hl hinstances).1 hrun₁
    obtain ⟨hnew', rfl, rfl⟩ := exec_reserveBodies_document.1 hrun₂
    obtain ⟨rfl, ids, hids, rfl⟩ := (exec_stageSchemas_document hl hschemas).1 hrun₃
    have hread := exec_readBodies (l.pendingOf d) (l.assigned d ids)
    refine ⟨⟨hnew', hnew⟩, ids, ?_⟩
    cases hfill : fill (l.assigned d ids).scope (l.pendingOf d) (l.assigned d ids).registry with
    | error e =>
        rw [hfill] at hread
        cases hread.symm.trans (congrArg Prod.fst h)
    | ok r =>
        rw [hfill] at hread
        cases hread.symm.trans h
        exact ⟨r, hids, hfill, rfl⟩
  · rintro ⟨hunused, ids, r, hids, hfill, rfl⟩
    have hread := exec_readBodies (l.pendingOf d) (l.assigned d ids)
    rw [show fill (l.assigned d ids).scope (l.pendingOf d) (l.assigned d ids).registry = .ok r from
      hfill] at hread
    rw [exec_bind_of_ok ((exec_stageInstances_document hl hinstances).2 ⟨hunused.instances, rfl, rfl⟩),
      exec_bind_of_ok (exec_reserveBodies_document.2 ⟨hunused.schemas, rfl, rfl⟩),
      exec_bind_of_ok ((exec_stageSchemas_document hl hschemas).2 ⟨rfl, ids, hids, rfl⟩)]
    exact hread

/-- The loader is in the middle of a document when every schema has its id. -/
theorem stages_assigned (hl : l.Sound) (hschemas : d.schemas.names.Nodup)
    (hinstances : d.instances.names.Nodup) (hunused : l.Unused d) {ids : Table InstanceId}
    (hids : Assigned (l.bodyIds d) (l.readyFor d).seeing [] d.schemas ids) :
    l.Stages (l.assigned d ids) := by
  obtain ⟨hstages₁, -⟩ := (stageInstances_phase d.instances hl.stages).of_eq_ok
    ((exec_stageInstances_document hl hinstances).2 ⟨hunused.instances, rfl, rfl⟩)
  obtain ⟨hstages₂, -, hbodies⟩ := (reserveBodies_phase d.schemas hstages₁).of_eq_ok
    (exec_reserveBodies_document.2 ⟨hunused.schemas, rfl, rfl⟩)
  exact ((stageSchemas_phase d.schemas hstages₂ hl hbodies).of_eq_ok
    ((exec_stageSchemas_document hl hschemas).2 ⟨rfl, ids, hids, rfl⟩)).1

/-! ### Ids of bodies -/

/-- A schema has an id for its body exactly when it has a body of its own. -/
theorem get?_bodyIds_eq_none_iff {name : String} :
    (l.bodyIds d).get? name = none ↔ ∀ body, (name, body) ∈ d.schemas → (aliasTarget? body).isSome := by
  rw [Table.get?_eq_none_iff, bodyIds, names_numbered]
  constructor
  · intro hname body hmem
    cases halias : aliasTarget? body with
    | some target => rfl
    | none => exact absurd (List.mem_map.2 ⟨_, mem_ownBodies.2 ⟨hmem, halias⟩, rfl⟩) hname
  · intro h hname
    obtain ⟨⟨_, body⟩, hown, rfl⟩ := List.mem_map.1 hname
    obtain ⟨hmem, halias⟩ := mem_ownBodies.1 hown
    exact absurd halias (Option.isSome_iff_ne_none.1 (h body hmem))

theorem exists_of_get?_bodyIds {name : String} {id : InstanceId}
    (h : (l.bodyIds d).get? name = some id) :
    ∃ body, (name, body) ∈ d.schemas ∧ aliasTarget? body = none := by
  have hname : name ∈ (l.bodyIds d).names :=
    List.mem_map.2 ⟨_, Table.mem_of_get?_eq_some h, rfl⟩
  rw [bodyIds, names_numbered] at hname
  obtain ⟨⟨other, body⟩, hmem, rfl⟩ := List.mem_map.1 hname
  exact ⟨body, mem_ownBodies.1 hmem⟩

/-- The places of the bodies are all the ids that were taken, each once. -/
theorem ids_pendingOf (l : Loader) (d : Document) :
    (l.pendingOf d).map Pending.id =
      (List.range' l.registry.instances.length
        (d.instances.length + (ownBodies d.schemas).length)).map InstanceId.mk := by
  rw [pendingOf, List.map_append, ids_waiting, ids_waiting, ← List.map_append, List.range'_append_1]

theorem nodup_ids_pendingOf (l : Loader) (d : Document) : ((l.pendingOf d).map Pending.id).Nodup := by
  rw [ids_pendingOf]
  exact List.Pairwise.map _ (fun _ _ hne heq => hne (InstanceId.mk.inj heq)) List.nodup_range'

theorem registry_readyFor (l : Loader) (d : Document) : (l.readyFor d).registry
    = l.registry.reserveMany (d.instances.length + (ownBodies d.schemas).length) := by
  simp [readyFor, withInstances, Registry.reserveMany]

theorem length_readyFor (l : Loader) (d : Document) : (l.readyFor d).registry.instances.length
    = l.registry.instances.length + d.instances.length + (ownBodies d.schemas).length := by
  simp [readyFor, withInstances]

/-- The places of the bodies are the ids that are taken for them. -/
theorem mem_ids_pendingOf {id : InstanceId} : id ∈ (l.pendingOf d).map Pending.id ↔
    l.registry.instances.length ≤ id.index ∧ (l.readyFor d).registry.Has id := by
  rw [ids_pendingOf, Registry.Has, length_readyFor, Nat.add_assoc]
  constructor
  · intro h
    obtain ⟨i, hi, rfl⟩ := List.mem_map.1 h
    exact List.mem_range'_1.1 hi
  · intro h
    exact List.mem_map.2 ⟨id.index, List.mem_range'_1.2 h, rfl⟩

theorem pendingOf_below {p : Pending} (hp : p ∈ l.pendingOf d) :
    p.id.index < (l.readyFor d).registry.instances.length :=
  (mem_ids_pendingOf.1 (List.mem_map_of_mem hp)).2

/-! ### Every outcome -/

/-- The names that staging a document leaves: those of its tables, none of which was given before. -/
structure Names (l₀ : Loader) (d : Document) (l : Loader) : Prop where
  stagedSchemas : l.stagedSchemas.names = d.schemas.names
  stagedInstances : l.stagedInstances.names = d.instances.names
  newSchemas : ∀ name ∈ d.schemas.names, name ∉ l₀.registry.entries.names
  newInstances : ∀ name ∈ d.instances.names, name ∉ l₀.instances.names

/-- The bodies of a document wait for places of its own. -/
theorem awaits_pendingOf (ids : Table InstanceId) : l.Awaits (l.pendingOf d) (l.assigned d ids) :=
  fun _ hp => mem_ids_pendingOf.1 (List.mem_map_of_mem hp)

/-- Staging keeps the invariant whether the document is refused or not. -/
theorem stage_phase (hl : l.Sound) (hschemas : d.schemas.names.Nodup)
    (hinstances : d.instances.names.Nodup) :
    Phase l (exec (stage d) l) fun _ l' => l.Names d l' := by
  unfold stage
  refine (stageInstances_phase d.instances hl.stages).bind fun _ l₁ hrun₁ hstages₁ _ => ?_
  obtain ⟨hnewInstances, rfl, rfl⟩ := (exec_stageInstances_document hl hinstances).1 hrun₁
  refine (reserveBodies_phase d.schemas hstages₁).bind fun _ l₂ hrun₂ hstages₂ hbodies => ?_
  obtain ⟨hnewSchemas, rfl, rfl⟩ := exec_reserveBodies_document.1 hrun₂
  refine (stageSchemas_phase d.schemas hstages₂ hl hbodies.2).bind fun _ l₃ hrun₃ hstages₃ _ => ?_
  obtain ⟨rfl, ids, hids, rfl⟩ := (exec_stageSchemas_document hl hschemas).1 hrun₃
  refine (readBodies_phase _ hstages₃ hl (awaits_pendingOf ids)).imp fun _ l₄ hsame => ?_
  refine ⟨?_, ?_, hnewSchemas, hnewInstances⟩
  · rw [hsame.stagedSchemas]
    exact hids.names
  · rw [hsame.stagedInstances]
    simp [assigned, readyFor, withInstances, hl.stagedInstances, names_numbered]

/-! ### Undefined targets -/

theorem stageInstances_ne_unknownRef (t : Table Json) (l : Loader) (place target : String) :
    (exec (stageInstances t) l).1 ≠ .error (.unknownRef place target) := by
  induction t generalizing l with
  | nil =>
      intro h
      cases h
  | cons entry rest ih =>
      obtain ⟨name, body⟩ := entry
      rw [exec_stageInstances_cons]
      split
      · intro h
        cases h
      · exact fun h => ih _ (onOk_eq_error.1 h)

theorem reserveBodies_ne_unknownRef (t : Table Json) (l : Loader) (place target : String) :
    (exec (reserveBodies t) l).1 ≠ .error (.unknownRef place target) := by
  induction t generalizing l with
  | nil =>
      intro h
      cases h
  | cons entry rest ih =>
      obtain ⟨name, body⟩ := entry
      rw [exec_reserveBodies_cons]
      split
      · intro h
        cases h
      · split
        · exact ih l
        · exact fun h => ih _ (onOk_eq_error.1 h)

/-- A target is refused as undefined either in an alias, if it refers to nothing when the schemas before
    it have their ids, or in a body, if it refers to nothing when all have. -/
theorem stage_eq_unknownRef {place target : String} (hl : l.Sound) (hschemas : d.schemas.names.Nodup)
    (hinstances : d.instances.names.Nodup)
    (h : (exec (stage d) l).1 = .error (.unknownRef place target)) :
    (∃ (before after : Table Json) (name : String) (body : Json) (ids : Table InstanceId),
        d.schemas = before ++ (name, body) :: after ∧ aliasTarget? body = some target ∧
        Assigned (l.bodyIds d) (l.readyFor d).seeing [] before ids ∧
        ((l.bodyIds d).get? target).or ((l.readyFor d).seeing ids target) = none) ∨
      ∃ ids, Assigned (l.bodyIds d) (l.readyFor d).seeing [] d.schemas ids ∧
        (l.assigned d ids).target? target = none := by
  have hempty : (l.readyFor d).stagedSchemas = [] := hl.stagedSchemas
  have hnew : ((l.readyFor d).stagedSchemas.names ++ d.schemas.names).Nodup := by
    simpa [hempty, Table.names] using hschemas
  unfold stage at h
  rcases exec_bind_eq_error.1 h with h | ⟨pendingInstances, l₁, hrun₁, h⟩
  · exact absurd h (stageInstances_ne_unknownRef _ _ _ _)
  rcases exec_bind_eq_error.1 h with h | ⟨bodies, l₂, hrun₂, h⟩
  · exact absurd h (reserveBodies_ne_unknownRef _ _ _ _)
  obtain ⟨-, -, rfl⟩ := (exec_stageInstances_document hl hinstances).1 hrun₁
  obtain ⟨-, rfl, rfl⟩ := exec_reserveBodies_document.1 hrun₂
  rcases exec_bind_eq_error.1 h with h | ⟨pending, l₃, hrun₃, h⟩
  · obtain ⟨before, after, name, body, ids, hsplit, hids, hnone, he⟩ := exec_stageSchemas_eq_error hnew h
    rw [hempty] at hids hnone
    refine Or.inl ⟨before, after, name, body, ids, hsplit, ?_⟩
    unfold idOf at hnone
    cases halias : aliasTarget? body with
    | some other =>
        rw [halias] at hnone he
        cases he
        exact ⟨rfl, hids, hnone⟩
    | none =>
        rw [halias] at hnone
        have hmem : (name, body) ∈ d.schemas := by simp [hsplit]
        simpa [halias] using get?_bodyIds_eq_none_iff.1 hnone body hmem
  · obtain ⟨-, ids, hids, rfl⟩ := (exec_stageSchemas_document hl hschemas).1 hrun₃
    have hread := exec_readBodies (pendingInstances ++ pending) (l.assigned d ids)
    refine Or.inr ⟨ids, hids, ?_⟩
    cases hfill : fill (l.assigned d ids).scope (pendingInstances ++ pending)
        (l.assigned d ids).registry with
    | ok r =>
        rw [hfill] at hread
        cases (congrArg Prod.fst hread).symm.trans h
    | error e =>
        rw [hfill] at hread
        cases hread.symm.trans h
        exact fill_eq_unknownRef hfill

end Loader

end SchemaTyping
