import SchemaTyping.Proofs.Document.Bodies

set_option autoImplicit false

/-! # Staging a document

The phases of `Loader.stage` one after the other, first as equations without monads and then with what
each phase keeps. `Loader.Stages l₀ l` is the invariant of them all: the loader `l` is in the middle of
loading a document that `l₀` was given, and what it did so far can be forgotten by clearing the staged
names. The ids that a document reserves are new, so putting its bodies in their places leaves the
instances of earlier documents alone. -/

namespace SchemaTyping

namespace Loader

/-! ## Phases as equations -/

/-- The id that is handed out next. -/
def nextId (l : Loader) : InstanceId := ⟨l.registry.instances.length⟩

/-- The loader after an id was handed out. -/
def reserved (l : Loader) : Loader := { l with registry := l.registry.reserve.1 }

/-- The loader with a further instance of the document, under the next id. -/
def withInstance (l : Loader) (name : String) : Loader :=
  { l.reserved with stagedInstances := l.stagedInstances.insert name l.nextId }

/-- The loader with a further schema of the document. -/
def withSchema (l : Loader) (name : String) (id : InstanceId) : Loader :=
  { l with stagedSchemas := l.stagedSchemas.insert name id }

/-- What `schemaId` finds. -/
def schemaIdIn (l : Loader) (bodies : Table InstanceId) (place name : String) (body : Json) :
    Except DocumentError (InstanceId × List Pending) :=
  match aliasTarget? body with
  | some target =>
    match (bodies.get? target).or (l.target? target) with
    | some id => .ok (id, [])
    | none => .error (.unknownRef place target)
  | none =>
    match bodies.get? name with
    | some id => .ok (id, [{ place, id, body }])
    | none => .error (.unknownRef place name)

theorem exec_stageInstances_cons (l : Loader) (name : String) (body : Json) (rest : Table Json) :
    exec (stageInstances ((name, body) :: rest)) l =
      if l.instances.has name then
        (.error (.invalid (Body.atKey "instances" name) .definedTwice), l)
      else
        onOk (⟨Body.atKey "instances" name, l.nextId, body⟩ :: ·)
          (exec (stageInstances rest) (l.withInstance name)) := by
  rw [stageInstances]
  simp only [exec_bind, exec_get]
  split
  · rfl
  · exact exec_bind_pure _ _ _

theorem exec_reserveBodies_cons (l : Loader) (name : String) (body : Json) (rest : Table Json) :
    exec (reserveBodies ((name, body) :: rest)) l =
      if (l.registry.get? name).isSome then (.error (.registry (.duplicateTypeName name)), l)
      else if (aliasTarget? body).isSome then exec (reserveBodies rest) l
      else onOk ((name, l.nextId) :: ·) (exec (reserveBodies rest) l.reserved) := by
  rw [reserveBodies]
  simp only [exec_bind, exec_get]
  split
  · rfl
  · split
    · rfl
    · exact exec_bind_pure _ _ _

theorem exec_schemaId (l : Loader) (bodies : Table InstanceId) (place name : String) (body : Json) :
    exec (schemaId bodies place name body) l = (l.schemaIdIn bodies place name body, l) := by
  unfold schemaId schemaIdIn
  cases aliasTarget? body with
  | some target =>
      simp only [exec_bind, exec_get]
      cases (bodies.get? target).or (l.target? target) <;> rfl
  | none => cases bodies.get? name <;> rfl

theorem exec_stageSchemas_cons (l : Loader) (bodies : Table InstanceId) (name : String) (body : Json)
    (rest : Table Json) :
    exec (stageSchemas bodies ((name, body) :: rest)) l =
      match l.schemaIdIn bodies (Body.atKey "schemas" name) name body with
      | .error e => (.error e, l)
      | .ok (id, pending) =>
        onOk (pending ++ ·) (exec (stageSchemas bodies rest) (l.withSchema name id)) := by
  rw [stageSchemas, exec_bind, exec_schemaId]
  cases l.schemaIdIn bodies (Body.atKey "schemas" name) name body with
  | error e => rfl
  | ok found => exact exec_bind_pure (stageSchemas bodies rest) (found.2 ++ ·) (l.withSchema name found.1)

theorem exec_reading {α : Type} (step : Reading α) (l : Loader) :
    exec (reading step) l =
      ((exec step l.registry).1, { l with registry := (exec step l.registry).2 }) := by
  unfold reading
  simp only [exec_bind, exec_get]
  have hrun : StateT.run (ExceptT.run step) l.registry = exec step l.registry := rfl
  rw [hrun]
  obtain ⟨outcome, registry⟩ := exec step l.registry
  cases outcome <;> rfl

theorem exec_readBodies_cons (l : Loader) (p : Pending) (rest : List Pending) :
    exec (readBodies (p :: rest)) l =
      match exec (Body.read l.scope p.place p.body) l.registry with
      | (.error e, registry) => (.error e, { l with registry })
      | (.ok i, registry) =>
        match registry.define p.id i with
        | .error e => (.error (.registry e), { l with registry })
        | .ok defined => exec (readBodies rest) { l with registry := defined } := by
  rw [readBodies]
  simp only [exec_bind, exec_get, exec_reading]
  rcases exec (Body.read l.scope p.place p.body) l.registry with ⟨outcome, registry⟩
  cases outcome with
  | error e => rfl
  | ok i =>
      dsimp only
      cases registry.define p.id i <;> rfl

theorem exec_bindAll_cons (l : Loader) (name : String) (id : InstanceId) (rest : Table InstanceId) :
    exec (bindAll ((name, id) :: rest)) l =
      match l.registry.bind name id with
      | .error e => (.error (.registry e), l)
      | .ok registry => exec (bindAll rest) { l with registry } := by
  rw [bindAll]
  simp only [exec_bind, exec_get]
  cases l.registry.bind name id <;> rfl

/-- The loader without what is staged. -/
def cleared (l : Loader) : Loader := { l with stagedSchemas := [], stagedInstances := [] }

/-- The loader with its staged instances among those that are known. -/
def merged (l : Loader) : Loader :=
  { l.cleared with
    instances := l.stagedInstances.foldl (fun t (name, id) => t.insert name id) l.instances }

theorem load_eq_exec (l : Loader) (d : Document) :
    l.load d =
      match l.options.validate, exec (stage d) l with
      | .error e, _ => (.error e, l)
      | .ok (), (.error e, staged) => (.error e, staged.cleared)
      | .ok (), (.ok (), staged) => exec (bindAll staged.stagedSchemas) staged.merged := by
  unfold load
  cases l.options.validate with
  | error e => rfl
  | ok =>
      rcases hrun : exec (stage d) l with ⟨outcome, staged⟩
      have hrun' : (stage d).run.run l = (outcome, staged) := hrun
      dsimp only
      rw [hrun']
      cases outcome <;> rfl

/-! ## The invariant -/

/-- What a loader is between two documents: every id that it holds is that of an instance, no name is
    given twice, and nothing is staged. -/
structure Sound (l : Loader) : Prop where
  closed : l.registry.Closed
  entries : l.registry.entries.names.Nodup
  instances : ∀ entry ∈ l.instances, l.registry.Has entry.2
  stagedSchemas : l.stagedSchemas = []
  stagedInstances : l.stagedInstances = []

/-- The loader `l` is in the middle of a document that `l₀` was given. -/
structure Stages (l₀ l : Loader) : Prop where
  options : l.options = l₀.options
  instances : l.instances = l₀.instances
  registry : l₀.registry.Extends l.registry
  closed : l.registry.Closed
  stagedSchemas : ∀ entry ∈ l.stagedSchemas, l.registry.Has entry.2
  stagedInstances : ∀ entry ∈ l.stagedInstances, l.registry.Has entry.2

/-- The id was handed out after `l₀`, and `l` has an instance under it. -/
def IsNew (l₀ l : Loader) (id : InstanceId) : Prop :=
  l₀.registry.instances.length ≤ id.index ∧ l.registry.Has id

/-- The run of a phase leaves a loader that is in the middle of the document. Its result is good there;
    the registry refuses nothing but a name that is taken. -/
def Phase {α : Type} (l₀ : Loader) (run : Except DocumentError α × Loader)
    (good : α → Loader → Prop) : Prop :=
  l₀.Stages run.2 ∧
    match run.1 with
    | .ok a => good a run.2
    | .error e => ∀ x, e = .registry x → ∃ name, x = .duplicateTypeName name

variable {l₀ l : Loader}

theorem Sound.stages (h : l.Sound) : l.Stages l where
  options := rfl
  instances := rfl
  registry := .refl _
  closed := h.closed
  stagedSchemas := by simp [h.stagedSchemas]
  stagedInstances := by simp [h.stagedInstances]

theorem IsNew.mono {l' : Loader} {id : InstanceId} (h : l₀.IsNew l id)
    (hle : l.registry.instances.length ≤ l'.registry.instances.length) : l₀.IsNew l' id :=
  ⟨h.1, Nat.lt_of_lt_of_le h.2 hle⟩

theorem Stages.reserved (h : l₀.Stages l) : l₀.Stages l.reserved where
  options := h.options
  instances := h.instances
  registry := h.registry.trans (l.registry.extends_add _)
  closed := h.closed.add fun _ hid => absurd hid List.not_mem_nil
  stagedSchemas := fun entry hentry => (l.registry.extends_add _).has (h.stagedSchemas entry hentry)
  stagedInstances := fun entry hentry =>
    (l.registry.extends_add _).has (h.stagedInstances entry hentry)

theorem Stages.withInstance (h : l₀.Stages l) (name : String) : l₀.Stages (l.withInstance name) :=
  { h.reserved with
    stagedInstances := fun entry hentry => by
      rcases Table.mem_of_mem_insert hentry with rfl | hold
      · exact l.registry.has_add_snd _
      · exact h.reserved.stagedInstances entry hold }

theorem Stages.withSchema (h : l₀.Stages l) (name : String) {id : InstanceId}
    (hid : l.registry.Has id) : l₀.Stages (l.withSchema name id) :=
  { h with
    stagedSchemas := fun entry hentry => by
      rcases Table.mem_of_mem_insert hentry with rfl | hold
      · exact hid
      · exact h.stagedSchemas entry hold }

/-- Names refer to instances that are there. -/
theorem Stages.has_of_target? (h : l₀.Stages l) (h₀ : l₀.Sound) {name : String} {id : InstanceId}
    (hid : l.target? name = some id) : l.registry.Has id := by
  rw [target?, Option.or_eq_some_iff, Option.or_eq_some_iff, Option.or_eq_some_iff] at hid
  rcases hid with hid | ⟨-, hid | ⟨-, hid | ⟨-, hid⟩⟩⟩
  · exact h.closed.entries _ (Table.mem_of_get?_eq_some hid)
  · exact h.stagedSchemas _ (Table.mem_of_get?_eq_some hid)
  · rw [h.instances] at hid
    exact h.registry.has (h₀.instances _ (Table.mem_of_get?_eq_some hid))
  · exact h.stagedInstances _ (Table.mem_of_get?_eq_some hid)

theorem Phase.ok {α : Type} {good : α → Loader → Prop} {a : α} (h : l₀.Stages l) (ha : good a l) :
    Phase l₀ (.ok a, l) good := ⟨h, ha⟩

theorem Phase.error {α : Type} {good : α → Loader → Prop} {e : DocumentError} (h : l₀.Stages l)
    (he : ∀ x, e = .registry x → ∃ name, x = .duplicateTypeName name) :
    Phase l₀ (.error e, l) good := ⟨h, he⟩

/-- What a phase leaves when it comes to a result. -/
theorem Phase.of_eq_ok {α : Type} {run : Except DocumentError α × Loader} {good : α → Loader → Prop}
    {a : α} (h : Phase l₀ run good) (hrun : run = (.ok a, l)) : l₀.Stages l ∧ good a l := by
  subst hrun
  exact h

theorem Phase.imp {α : Type} {run : Except DocumentError α × Loader} {good good' : α → Loader → Prop}
    (h : Phase l₀ run good) (himp : ∀ a l', good a l' → good' a l') : Phase l₀ run good' := by
  obtain ⟨outcome, l'⟩ := run
  obtain ⟨hstages, hout⟩ := h
  cases outcome with
  | ok a => exact ⟨hstages, himp a l' hout⟩
  | error e => exact ⟨hstages, hout⟩

theorem Phase.onOk {α β : Type} {run : Except DocumentError α × Loader} {good : α → Loader → Prop}
    {goodAfter : β → Loader → Prop} {f : α → β} (h : Phase l₀ run good)
    (hf : ∀ a l', good a l' → goodAfter (f a) l') : Phase l₀ (SchemaTyping.onOk f run) goodAfter := by
  obtain ⟨outcome, l'⟩ := run
  obtain ⟨hstages, hout⟩ := h
  cases outcome with
  | ok a => exact ⟨hstages, hf a l' hout⟩
  | error e => exact ⟨hstages, hout⟩

theorem Phase.bind {α β : Type} {m : Loading α} {f : α → Loading β} {good : α → Loader → Prop}
    {goodAfter : β → Loader → Prop} (hm : Phase l₀ (exec m l) good)
    (hf : ∀ a l', exec m l = (.ok a, l') → l₀.Stages l' → good a l' →
      Phase l₀ (exec (f a) l') goodAfter) :
    Phase l₀ (exec (m >>= f) l) goodAfter := by
  rcases hrun : exec m l with ⟨outcome, l'⟩
  rw [hrun] at hm
  obtain ⟨hstages, hout⟩ := hm
  cases outcome with
  | ok a =>
      rw [exec_bind_of_ok hrun]
      exact hf a l' hrun hstages hout
  | error e =>
      rw [exec_bind_of_error hrun]
      exact ⟨hstages, hout⟩

/-! ## Phases -/

/-- Every body that waits will be put in a place of its document's own. -/
def Awaits (l₀ : Loader) (pending : List Pending) (l : Loader) : Prop :=
  ∀ p ∈ pending, l₀.IsNew l p.id

theorem stageInstances_phase (t : Table Json) (h : l₀.Stages l) :
    Phase l₀ (exec (stageInstances t) l) fun _ _ => True := by
  induction t generalizing l with
  | nil => exact .ok h trivial
  | cons entry rest ih =>
      obtain ⟨name, body⟩ := entry
      rw [exec_stageInstances_cons]
      split
      · exact .error h fun _ => DocumentError.noConfusion
      · exact (ih (h.withInstance name)).onOk fun _ _ _ => trivial

theorem reserveBodies_phase (t : Table Json) (h : l₀.Stages l) :
    Phase l₀ (exec (reserveBodies t) l) fun bodies l' =>
      l.registry.instances.length ≤ l'.registry.instances.length ∧
        ∀ entry ∈ bodies, l'.registry.Has entry.2 := by
  induction t generalizing l with
  | nil => exact .ok h ⟨Nat.le_refl _, fun _ hp => absurd hp List.not_mem_nil⟩
  | cons entry rest ih =>
      obtain ⟨name, body⟩ := entry
      rw [exec_reserveBodies_cons]
      split
      · exact .error h fun x hx => ⟨name, (DocumentError.registry.inj hx).symm⟩
      · split
        · exact ih h
        · refine (ih h.reserved).onOk fun others l' ⟨hle, hothers⟩ => ?_
          refine ⟨Nat.le_trans (l.registry.extends_add _).length_le hle, ?_⟩
          exact List.forall_mem_cons.2 ⟨Nat.lt_of_lt_of_le (l.registry.has_add_snd _) hle, hothers⟩

theorem schemaIdIn_eq_error {bodies : Table InstanceId} {place name : String} {body : Json}
    {e : DocumentError} (h : l.schemaIdIn bodies place name body = .error e) :
    ∃ place target, e = .unknownRef place target := by
  unfold schemaIdIn at h
  repeat' split at h
  all_goals cases h <;> exact ⟨_, _, rfl⟩

theorem has_of_schemaIdIn {bodies : Table InstanceId} {place name : String} {body : Json}
    {id : InstanceId} {pending : List Pending} (h : l₀.Stages l) (h₀ : l₀.Sound)
    (hbodies : ∀ entry ∈ bodies, l.registry.Has entry.2)
    (hok : l.schemaIdIn bodies place name body = .ok (id, pending)) : l.registry.Has id := by
  unfold schemaIdIn at hok
  split at hok
  · split at hok
    · next heq =>
        cases hok
        rcases Option.or_eq_some_iff.1 heq with hbody | ⟨-, htarget⟩
        · exact hbodies _ (Table.mem_of_get?_eq_some hbody)
        · exact h.has_of_target? h₀ htarget
    · cases hok
  · split at hok
    · next hbody =>
        cases hok
        exact hbodies _ (Table.mem_of_get?_eq_some hbody)
    · cases hok

theorem stageSchemas_phase {bodies : Table InstanceId} (t : Table Json) (h : l₀.Stages l)
    (h₀ : l₀.Sound) (hbodies : ∀ entry ∈ bodies, l.registry.Has entry.2) :
    Phase l₀ (exec (stageSchemas bodies t) l) fun _ _ => True := by
  induction t generalizing l with
  | nil => exact .ok h trivial
  | cons entry rest ih =>
      obtain ⟨name, body⟩ := entry
      rw [exec_stageSchemas_cons]
      split
      · next e he =>
          obtain ⟨place, target, rfl⟩ := schemaIdIn_eq_error he
          exact .error h fun _ => DocumentError.noConfusion
      · next id pending hok =>
          have hid := has_of_schemaIdIn h h₀ hbodies hok
          exact (ih (h.withSchema name hid) hbodies).onOk fun _ _ _ => trivial

/-- What reading bodies leaves as it was, in a phase that started at `l`. -/
structure SameNames (l l' : Loader) : Prop where
  stagedSchemas : l'.stagedSchemas = l.stagedSchemas
  stagedInstances : l'.stagedInstances = l.stagedInstances

theorem Stages.withRegistry (h : l₀.Stages l) {r : Registry} (hext : l₀.registry.Extends r)
    (hle : l.registry.instances.length ≤ r.instances.length) (hr : r.Closed) :
    l₀.Stages { l with registry := r } where
  options := h.options
  instances := h.instances
  registry := hext
  closed := hr
  stagedSchemas := fun entry hentry => Nat.lt_of_lt_of_le (h.stagedSchemas entry hentry) hle
  stagedInstances := fun entry hentry => Nat.lt_of_lt_of_le (h.stagedInstances entry hentry) hle

theorem readBodies_phase (pending : List Pending) (h : l₀.Stages l) (h₀ : l₀.Sound)
    (hpending : l₀.Awaits pending l) :
    Phase l₀ (exec (readBodies pending) l) fun _ l' => l.SameNames l' := by
  induction pending generalizing l with
  | nil => exact .ok h ⟨rfl, rfl⟩
  | cons p rest ih =>
      have hscope : Body.ScopeBelow l.scope l.registry.instances.length :=
        fun _ _ hid => h.has_of_target? h₀ hid
      obtain ⟨hext, hclosed, hout⟩ :=
        Body.read_keeps p.place p.body hscope l.registry h.closed (Nat.le_refl _)
      have hread := h.withRegistry (h.registry.trans hext) hext.length_le hclosed
      rw [exec_readBodies_cons]
      rcases hrun : exec (Body.read l.scope p.place p.body) l.registry with ⟨outcome, r⟩
      rw [hrun] at hext hclosed hout hread
      cases outcome with
      | error e => exact .error hread fun x hx => absurd hx (hout x)
      | ok i =>
          -- the place was taken for this body, so filling it changes nothing that `l₀` has
          obtain ⟨hp, hhas⟩ := hpending p List.mem_cons_self
          have hi : ∀ id ∈ i.ids, r.Has id := hout r.instances.length (Nat.le_refl _)
          simp only [Registry.define_of_has (hext.has hhas) i]
          have hdefined := h.withRegistry (r := { r with instances := r.instances.set p.id.index i })
            ((h.registry.trans hext).set hp i) (by simpa using hext.length_le) (hclosed.set hi _)
          refine (ih hdefined fun q hq => ?_).imp fun _ l' hsame => ⟨hsame.1, hsame.2⟩
          exact (hpending q (List.mem_cons_of_mem _ hq)).mono (by simpa using hext.length_le)

/-! ## Names -/

/-- The loader with further names at the end. -/
def withNames (l : Loader) (t : Table InstanceId) : Loader :=
  { l with registry := { l.registry with entries := l.registry.entries ++ t } }

/-- New names for instances that are there are all given: binding them cannot stop midway. -/
theorem exec_bindAll (t : Table InstanceId) (l : Loader)
    (hhas : ∀ entry ∈ t, l.registry.Has entry.2)
    (hnew : (l.registry.entries.names ++ t.names).Nodup) :
    exec (bindAll t) l = (.ok (), l.withNames t) := by
  induction t generalizing l with
  | nil => simp [bindAll, withNames]
  | cons entry rest ih =>
      obtain ⟨name, id⟩ := entry
      have hout : name ∉ l.registry.entries.names := fun hmem =>
        (List.nodup_append.1 hnew).2.2 name hmem name List.mem_cons_self rfl
      have hbind : l.registry.bind name id = .ok (l.withNames [(name, id)]).registry := by
        rw [Registry.bind, if_neg (Nat.not_le.2 (hhas _ List.mem_cons_self)),
          if_neg (by simp [Table.has_eq_false_iff.2 hout])]
        rfl
      have hrest := ih (l.withNames [(name, id)])
        (fun entry hentry => hhas entry (List.mem_cons_of_mem _ hentry))
        (by simpa [withNames, Table.names] using hnew)
      rw [exec_bindAll_cons, hbind]
      exact hrest.trans (by simp [withNames])

end Loader

end SchemaTyping
