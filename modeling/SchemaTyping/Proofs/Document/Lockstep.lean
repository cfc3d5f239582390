import SchemaTyping.Proofs.Document.Alike
import SchemaTyping.Proofs.Document.Staging

set_option autoImplicit false

/-! # Loading in step

Two loaders that differ in their ids, their options or the constraints of their rules stay alike when they are
given corresponding documents. `Loader.Correspondence` lists what that takes of a single operation of the
registry and of the reading of a single body; each phase of loading then keeps two loaders `Related`, and so
does a whole document (`Loader.Related.load`).

The first such correspondence is a renaming of ids (`Loader.InStep`). -/

namespace SchemaTyping

variable {σ : InstanceId → InstanceId}

/-- The document with its bodies replaced. -/
def Document.mapBodies (f : Json → Json) (d : Document) : Document where
  instances := d.instances.mapValues f
  schemas := d.schemas.mapValues f

theorem Document.mapBodies_id (d : Document) : d.mapBodies id = d := by simp [mapBodies]

namespace Loader

/-- A way in which the operations of two loaders correspond. -/
structure Correspondence where
  ids : InstanceId → InstanceId
  bodies : Json → Json
  contents : Instance → Instance
  options : Options → Options → Prop
  registries : Registry → Registry → Prop
  refusals : DocumentError → DocumentError → Prop
  overrideKeyName : ∀ {o p}, options o p → p.overrideKeyName = o.overrideKeyName
  validate : ∀ {o p}, options o p → p.validate = o.validate
  aliasTarget? : ∀ j, aliasTarget? (bodies j) = aliasTarget? j
  entries : ∀ {r s}, registries r s → s.entries = r.entries.mapValues ids
  withEntries : ∀ {r s}, registries r s → ∀ entries : Table InstanceId,
    registries { r with entries } { s with entries := entries.mapValues ids }
  has_iff : ∀ {r s}, registries r s → ∀ id, s.Has (ids id) ↔ r.Has id
  reserve : ∀ {r s}, registries r s →
    s.reserve.2 = ids r.reserve.2 ∧ registries r.reserve.1 s.reserve.1
  set : ∀ {r s id}, registries r s → r.Has id → ∀ i,
    registries { r with instances := r.instances.set id.index i }
      { s with instances := s.instances.set (ids id).index (contents i) }
  read : ∀ {o p}, options o p → ∀ scope : Scope, scope.overrideKey = o.overrideKeyName → ∀ place j,
    Corresponds refusals registries contents (Body.read scope place j)
      (Body.read (scope.rename ids) place (bodies j))
  refused : ∀ e, refusals e e
  unknown : ∀ id, refusals (.registry (.unknownInstance id)) (.registry (.unknownInstance (ids id)))

theorem aliasTarget?_id (j : Json) : aliasTarget? (id j) = aliasTarget? j := rfl

theorem unknown_id (i : InstanceId) :
    DocumentError.registry (.unknownInstance i) = .registry (.unknownInstance (id i)) := rfl

variable {c : Correspondence}

/-! ## Registries -/

section

variable {r s : Registry}

theorem Correspondence.get? (c : Correspondence) (h : c.registries r s) (name : String) :
    s.get? name = (r.get? name).map c.ids := by
  rw [Registry.get?, c.entries h, Table.get?_mapValues]
  rfl

theorem Correspondence.define (c : Correspondence) (h : c.registries r s) (id : InstanceId) (i : Instance) :
    Outcome.Corresponds (fun e e' => c.refusals (.registry e) (.registry e')) c.registries
      (r.define id i) (s.define (c.ids id) (c.contents i)) := by
  by_cases hid : r.Has id
  · rw [Registry.define_of_has hid, Registry.define_of_has ((c.has_iff h id).2 hid)]
    exact c.set h hid i
  · rw [Registry.define_of_not_has hid, Registry.define_of_not_has (mt (c.has_iff h id).1 hid)]
    exact c.unknown id

theorem Correspondence.bind (c : Correspondence) (h : c.registries r s) (name : String) (id : InstanceId) :
    Outcome.Corresponds (fun e e' => c.refusals (.registry e) (.registry e')) c.registries
      (r.bind name id) (s.bind name (c.ids id)) := by
  have hnames : s.entries.names = r.entries.names := by rw [c.entries h, Table.names_mapValues]
  by_cases hid : r.Has id
  · have hid' := (c.has_iff h id).2 hid
    by_cases hname : name ∈ r.entries.names
    · rw [Registry.bind_of_mem hid hname, Registry.bind_of_mem hid' (hnames ▸ hname)]
      exact c.refused _
    · rw [Registry.bind_eq_ok hid hname, Registry.bind_eq_ok hid' (hnames ▸ hname)]
      have hnamed := c.withEntries h (r.entries ++ [(name, id)])
      rwa [Table.mapValues_append, ← c.entries h] at hnamed
  · rw [Registry.bind_of_not_has hid, Registry.bind_of_not_has (mt (c.has_iff h id).1 hid)]
    exact c.unknown id

end

/-! ## Loaders -/

/-- A waiting body with its id replaced. -/
def Pending.rename (σ : InstanceId → InstanceId) (p : Pending) : Pending := { p with id := σ p.id }

/-- What waits in the first loader, as it waits in the second. -/
def Pending.over (c : Correspondence) (p : Pending) : Pending :=
  { p with id := c.ids p.id, body := c.bodies p.body }

/-- The loader `m` is what corresponds to `l`. -/
structure Related (c : Correspondence) (l m : Loader) : Prop where
  options : c.options l.options m.options
  registry : c.registries l.registry m.registry
  instances : m.instances = l.instances.mapValues c.ids
  stagedSchemas : m.stagedSchemas = l.stagedSchemas.mapValues c.ids
  stagedInstances : m.stagedInstances = l.stagedInstances.mapValues c.ids

section

variable {l m : Loader}

theorem Related.nextId (h : Related c l m) : m.nextId = c.ids l.nextId := (c.reserve h.registry).1

theorem Related.reserved (h : Related c l m) : Related c l.reserved m.reserved :=
  { h with registry := (c.reserve h.registry).2 }

theorem Related.withInstance (h : Related c l m) (name : String) :
    Related c (l.withInstance name) (m.withInstance name) :=
  { h.reserved with
    stagedInstances := by
      simp only [Loader.withInstance, h.stagedInstances, h.nextId, Table.insert_mapValues] }

theorem Related.withSchema (h : Related c l m) (name : String) (id : InstanceId) :
    Related c (l.withSchema name id) (m.withSchema name (c.ids id)) :=
  { h with
    stagedSchemas := by simp only [Loader.withSchema, h.stagedSchemas, Table.insert_mapValues] }

theorem Related.target? (h : Related c l m) (name : String) :
    m.target? name = (l.target? name).map c.ids := by
  simp only [Loader.target?, c.get? h.registry, h.stagedSchemas, h.instances, h.stagedInstances,
    Table.get?_mapValues, Option.map_or]

theorem Related.scope (h : Related c l m) : m.scope = l.scope.rename c.ids := by
  simp only [Loader.scope, Scope.rename, c.overrideKeyName h.options, funext h.target?]

theorem Related.schemaIdIn (h : Related c l m) (ids : Table InstanceId) (place name : String)
    (body : Json) :
    m.schemaIdIn (ids.mapValues c.ids) place name (c.bodies body)
      = (l.schemaIdIn ids place name body).map
          fun found => (c.ids found.1, found.2.map (Pending.over c)) := by
  unfold Loader.schemaIdIn
  rw [c.aliasTarget?]
  cases SchemaTyping.aliasTarget? body with
  | some target =>
      simp only [h.target?, Table.get?_mapValues, ← Option.map_or]
      cases (ids.get? target).or (l.target? target) <;> rfl
  | none =>
      simp only [Table.get?_mapValues]
      cases ids.get? name <;> rfl

theorem Related.merged (h : Related c l m) : Related c l.merged m.merged where
  options := h.options
  registry := h.registry
  instances := by
    simp only [Loader.merged, h.instances, h.stagedInstances, Table.foldl_insert_mapValues]
  stagedSchemas := rfl
  stagedInstances := rfl

end

/-! ## Phases -/

/-- Loading on two related loaders. -/
abbrev StaysRelated {α β : Type} (c : Correspondence) (f : α → β) (step : Loading α)
    (step' : Loading β) : Prop := Corresponds c.refusals (Related c) f step step'

theorem stageInstances_related (t : Table Json) :
    StaysRelated c (List.map (Pending.over c)) (stageInstances t) (stageInstances (t.mapValues c.bodies)) := by
  induction t with
  | nil => exact corresponds_pure _ _
  | cons entry rest ih =>
      obtain ⟨name, body⟩ := entry
      intro l m h
      rw [Table.mapValues_cons, exec_stageInstances_cons, exec_stageInstances_cons, h.instances,
        Table.has_mapValues]
      split
      · exact runCorresponds_error (c.refused _)
      · refine (ih _ _ (h.withInstance name)).onOk fun others => ?_
        rw [h.nextId]
        rfl

theorem reserveBodies_related (t : Table Json) :
    StaysRelated c (Table.mapValues c.ids) (reserveBodies t) (reserveBodies (t.mapValues c.bodies)) := by
  induction t with
  | nil => exact corresponds_pure _ _
  | cons entry rest ih =>
      obtain ⟨name, body⟩ := entry
      intro l m h
      rw [Table.mapValues_cons, exec_reserveBodies_cons, exec_reserveBodies_cons, c.get? h.registry,
        Option.isSome_map, c.aliasTarget?]
      split
      · exact runCorresponds_error (c.refused _)
      · split
        · exact ih l m h
        · refine (ih _ _ h.reserved).onOk fun others => ?_
          rw [h.nextId]
          rfl

theorem stageSchemas_related (ids : Table InstanceId) (t : Table Json) :
    StaysRelated c (List.map (Pending.over c)) (stageSchemas ids t)
      (stageSchemas (ids.mapValues c.ids) (t.mapValues c.bodies)) := by
  induction t with
  | nil => exact corresponds_pure _ _
  | cons entry rest ih =>
      obtain ⟨name, body⟩ := entry
      intro l m h
      rw [Table.mapValues_cons, exec_stageSchemas_cons, exec_stageSchemas_cons, h.schemaIdIn]
      cases l.schemaIdIn ids (Body.atKey "schemas" name) name body with
      | error e => exact runCorresponds_error (c.refused e)
      | ok found =>
          obtain ⟨id, pending⟩ := found
          exact (ih _ _ (h.withSchema name id)).onOk fun others => List.map_append.symm

theorem readBodies_related (pending : List Pending) :
    StaysRelated c id (readBodies pending) (readBodies (pending.map (Pending.over c))) := by
  induction pending with
  | nil => exact corresponds_pure id ()
  | cons p rest ih =>
      intro l m h
      rw [List.map_cons, exec_readBodies_cons, exec_readBodies_cons, h.scope]
      have hread := c.read h.options l.scope rfl p.place p.body _ _ h.registry
      simp only [Pending.over]
      rcases hl : exec (Body.read l.scope p.place p.body) l.registry with ⟨outcome, r⟩
      rcases hm : exec (Body.read (l.scope.rename c.ids) p.place (c.bodies p.body)) m.registry
        with ⟨outcome', s⟩
      rw [hl, hm] at hread
      cases outcome <;> cases outcome'
      · exact runCorresponds_error hread
      · exact hread.elim
      · exact hread.elim
      · next i j =>
          obtain ⟨rfl, hstep⟩ := hread
          have hdefine := c.define hstep p.id i
          dsimp only
          cases hr : r.define p.id i <;> cases hs : s.define (c.ids p.id) (c.contents i) <;>
            rw [hr, hs] at hdefine
          · exact runCorresponds_error hdefine
          · exact hdefine.elim
          · exact hdefine.elim
          · exact ih _ _ { h with registry := hdefine }

theorem bindAll_related (t : Table InstanceId) :
    StaysRelated c id (bindAll t) (bindAll (t.mapValues c.ids)) := by
  induction t with
  | nil => exact corresponds_pure id ()
  | cons entry rest ih =>
      obtain ⟨name, target⟩ := entry
      intro l m h
      have hbind := c.bind h.registry name target
      rw [Table.mapValues_cons, exec_bindAll_cons, exec_bindAll_cons]
      cases hl : l.registry.bind name target <;> cases hm : m.registry.bind name (c.ids target) <;>
        rw [hl, hm] at hbind
      · exact runCorresponds_error hbind
      · exact hbind.elim
      · exact hbind.elim
      · exact ih _ _ { h with registry := hbind }

theorem stage_related (d : Document) : StaysRelated c id (stage d) (stage (d.mapBodies c.bodies)) := by
  unfold stage
  refine corresponds_bind (stageInstances_related d.instances) fun pendingInstances => ?_
  refine corresponds_bind (reserveBodies_related d.schemas) fun ids => ?_
  refine corresponds_bind (stageSchemas_related ids d.schemas) fun pendingSchemas => ?_
  rw [← List.map_append]
  exact readBodies_related _

/-- **Related loaders stay related**: what one makes of a document the other makes of the corresponding one,
    or both refuse it. -/
theorem Related.load {l m : Loader} (h : Related c l m) (d : Document) :
    RunCorresponds c.refusals (Related c) id (l.load d) (m.load (d.mapBodies c.bodies)) := by
  rw [load_eq_exec, load_eq_exec, c.validate h.options]
  cases l.options.validate with
  | error e => exact runCorresponds_error (c.refused e)
  | ok =>
      have hstage := stage_related (c := c) d l m h
      rcases hl : exec (stage d) l with ⟨outcome, staged⟩
      rcases hm : exec (stage (d.mapBodies c.bodies)) m with ⟨outcome', staged'⟩
      rw [hl, hm] at hstage
      cases outcome <;> cases outcome'
      · exact runCorresponds_error hstage
      · exact hstage.elim
      · exact hstage.elim
      · obtain ⟨-, hstep⟩ := hstage
        dsimp only
        rw [hstep.stagedSchemas]
        exact bindAll_related staged.stagedSchemas _ _ hstep.merged

end Loader

/-! ## Renaming -/

theorem Registry.InStep.addsAlike : AddsAlike σ (Registry.InStep σ) :=
  fun _ _ i h => ⟨h.add_snd i, h.add i⟩

namespace Loader

/-- `m` is `l` with its ids replaced, and the ids that the two hand out from now on correspond. -/
structure InStep (σ : InstanceId → InstanceId) (l m : Loader) : Prop where
  options : m.options = l.options
  registry : l.registry.InStep σ m.registry
  instances : m.instances = l.instances.mapValues σ
  stagedSchemas : m.stagedSchemas = l.stagedSchemas.mapValues σ
  stagedInstances : m.stagedInstances = l.stagedInstances.mapValues σ

/-- Loading the same documents with other ids. A refusal may name an id, so refusals differ. -/
def Correspondence.ofIds (σ : InstanceId → InstanceId) : Correspondence where
  ids := σ
  bodies := id
  contents := Instance.rename σ
  options o p := p = o
  registries := Registry.InStep σ
  refusals _ _ := True
  overrideKeyName := fun h => by rw [h]
  validate := fun h => by rw [h]
  aliasTarget? := fun _ => rfl
  entries := fun h => h.entries
  withEntries := fun h => h.withEntries
  has_iff := fun h => h.has_iff
  reserve := fun h => ⟨(h.next 0).symm, h.reserve⟩
  set := fun h hid i => h.set hid i
  read := fun _ scope _ place j =>
    (Body.read_alike Registry.InStep.addsAlike scope place j).corresponds fun _ => trivial
  refused := fun _ => trivial
  unknown := fun _ => trivial

variable {l m : Loader}

theorem related_ofIds : Related (Correspondence.ofIds σ) l m ↔ l.InStep σ m :=
  ⟨fun h => ⟨h.1, h.2, h.3, h.4, h.5⟩, fun h => ⟨h.1, h.2, h.3, h.4, h.5⟩⟩

/-- A document that the second loader takes is taken by the first, and they stay in step. -/
theorem InStep.load {m' : Loader} {d : Document} (h : l.InStep σ m) (hm : m.load d = (.ok (), m')) :
    ∃ l', l.load d = (.ok (), l') ∧ l'.InStep σ m' := by
  have hload := (related_ofIds.2 h).load d
  have hsame : d.mapBodies (Correspondence.ofIds σ).bodies = d := d.mapBodies_id
  rw [hsame, hm] at hload
  obtain ⟨_, l', hl, -, hrelated⟩ := hload.of_eq_ok
  exact ⟨l', hl, related_ofIds.1 hrelated⟩

end Loader

end SchemaTyping
