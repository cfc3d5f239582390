import SchemaTyping.Proofs.Document.Joining
import SchemaTyping.Proofs.Document.Targets
import SchemaTyping.Proofs.Generation.Renaming

set_option autoImplicit false

/-! # Documents one after the other

Loading two documents one after the other is loading the document that holds the entries of both, up to a
renaming of ids (`Loader.Reachable.feed_append`), unless a schema of the second has the name of an instance
that is known by then: in one document the schema goes before the instance, but an earlier document cannot
see it.

The ids correspond as `Loader.Joins` states. The first document is read against fewer names than both
together, so what a name refers to in it is only kept (`Loader.Leaves.seeing_first`); in the second the
names are the same (`Loader.Leaves.seeing_second`). From that follow the ids of the schemas
(`Loader.Leaves.assigned_append`) and that the bodies can be read one after the other in a registry that
has all ids already (`Loader.Joins.fill_append`). The order in which the document of both reads them
differs, which moves inline instances only (`Loader.fill_perm`). -/

namespace SchemaTyping

namespace Loader

variable {l m : Loader} {d d' : Document}

/-! ## What names refer to -/

/-- The loader `m` is left by a document whose schemas got these ids. -/
structure Leaves (l : Loader) (d : Document) (ids : Table InstanceId) (m : Loader) : Prop where
  sound : m.Sound
  names : ids.names = d.schemas.names
  entries : m.registry.entries = l.registry.entries ++ ids
  instances : m.instances = l.instancesWith d

section

variable {φ ψ : InstanceId → InstanceId} {ids seen : Table InstanceId}
variable (hl : l.Sound) (hm : l.Leaves d ids m) (h : l.Joins m d d' φ ψ)

section

variable {name : String} (hunused' : m.Unused d')

include hm hunused'

/-- A schema of the second document is none of the first. -/
theorem Leaves.not_mem_schemas (hname : name ∈ d'.schemas.names) :
    name ∉ l.registry.entries.names ∧ name ∉ d.schemas.names := by
  have hout := hunused'.schemas name hname
  rwa [hm.entries, Table.names_append, List.mem_append, not_or, hm.names] at hout

/-- An instance of the second document is none of the first. -/
theorem Leaves.not_mem_instances (hname : name ∈ d'.instances.names) :
    name ∉ l.instances.names ∧ name ∉ d.instances.names := by
  have hout := hunused'.instances name hname
  rwa [hm.instances, instancesWith, Table.names_append, List.mem_append, not_or, names_numbered] at hout

theorem Leaves.unused_append (hunused : l.Unused d) : l.Unused (d.append d') where
  schemas := by
    intro name hname
    rw [Document.append, Table.names_append] at hname
    rcases List.mem_append.1 hname with hname | hname
    · exact hunused.schemas name hname
    · exact (hm.not_mem_schemas hunused' hname).1
  instances := by
    intro name hname
    rw [Document.append, Table.names_append] at hname
    rcases List.mem_append.1 hname with hname | hname
    · exact hunused.instances name hname
    · exact (hm.not_mem_instances hunused' hname).1

/-- Both documents are one that can be given: no name is there twice. -/
theorem Leaves.proper_append (hd : d.Proper) (hd' : d'.Proper) : (d.append d').Proper := by
  have happend {t t' : Table Json} (ht : Json.GoodTable Json.Proper t)
      (ht' : Json.GoodTable Json.Proper t') (hout : ∀ name ∈ t'.names, name ∉ t.names) :
      Json.GoodTable Json.Proper (t ++ t') := by
    refine ⟨?_, List.forall_mem_append.2 ⟨ht.values, ht'.values⟩⟩
    rw [Table.names_append]
    exact List.nodup_append.2 ⟨ht.names, ht'.names, fun x hx y hy hxy => hout y hy (hxy ▸ hx)⟩
  exact ⟨happend hd.instances hd'.instances fun _ hname => (hm.not_mem_instances hunused' hname).2,
    happend hd.schemas hd'.schemas fun _ hname => (hm.not_mem_schemas hunused' hname).2⟩

end

include hl hm h in
/-- The named instances after both documents. -/
theorem Leaves.instancesWith_append :
    l.instancesWith (d.append d') = (m.instancesWith d').mapValues ψ := by
  have hold : l.instances.mapValues ψ = l.instances :=
    Table.mapValues_eq_self fun entry hentry => h.old _ (hl.instances entry hentry)
  rw [instancesWith, instancesWith, h.instances, hm.instances, instancesWith, List.append_assoc,
    Table.mapValues_append, Table.mapValues_append, Table.mapValues_append, hold]

include hl h in
theorem Joins.get?_registry (name : String) :
    (l.registry.get? name).map ψ = l.registry.get? name := by
  cases hid : l.registry.get? name with
  | none => rfl
  | some id =>
      exact congrArg some (h.old id (hl.closed.entries _ (Table.mem_of_get?_eq_some hid)))

include hm in
theorem Leaves.get? (name : String) :
    m.registry.get? name = (l.registry.get? name).or (ids.get? name) := by
  rw [Registry.get?, hm.entries, Table.get?_append]
  rfl

include hl hm h in
/-- What a name refers to in the second document is what it refers to in both, when the first has its ids. -/
theorem Leaves.seeing_second (name : String) :
    (l.readyFor (d.append d')).seeing ((ids ++ seen : Table InstanceId).mapValues ψ) name
      = ((m.readyFor d').seeing seen name).map ψ := by
  rw [seeing_readyFor hl, seeing_readyFor hm.sound, hm.instancesWith_append hl h, hm.get?]
  simp only [Table.get?_mapValues, Table.get?_append, Option.map_or, Option.or_assoc, h.get?_registry hl]

section

variable (hunused' : m.Unused d') (hfresh : ∀ name ∈ d'.schemas.names, name ∉ m.instances.names)
variable (hseen : ∀ name ∈ seen.names, name ∈ d.schemas.names) {name : String} {id : InstanceId}

include hl hm hunused' hfresh hseen

/-- What the first document refers to is no schema of the second. -/
theorem Leaves.not_mem_of_seeing (hid : (l.readyFor d).seeing seen name = some id) :
    name ∉ d'.schemas.names := by
  have hmem {t : Table InstanceId} (hget : t.get? name = some id) : name ∈ t.names :=
    List.mem_map.2 ⟨_, Table.mem_of_get?_eq_some hget, rfl⟩
  intro hname
  have hentry := hm.not_mem_schemas hunused' hname
  rw [seeing_readyFor hl, Option.or_eq_some_iff, Option.or_eq_some_iff] at hid
  rcases hid with hid | ⟨-, hid | ⟨-, hid⟩⟩
  · exact hentry.1 (hmem hid)
  · exact hentry.2 (hseen name (hmem hid))
  · exact hfresh name hname (hm.instances ▸ hmem hid)

include h in
/-- What a name refers to in the first document is what it refers to in both, whatever schemas of the second
    have their ids. -/
theorem Leaves.seeing_first (more : Table InstanceId)
    (hmore : ∀ name ∈ more.names, name ∈ d'.schemas.names)
    (hid : (l.readyFor d).seeing seen name = some id) :
    (l.readyFor (d.append d')).seeing (seen.mapValues ψ ++ more) name = some (ψ id) := by
  have hout : more.get? name = none := Table.get?_eq_none_iff.2 fun hname =>
    hm.not_mem_of_seeing hl hunused' hfresh hseen hid (hmore name hname)
  have hsame : (l.readyFor (d.append d')).seeing (seen.mapValues ψ ++ more) name
      = (((l.readyFor d).seeing seen name).or
          ((numbered m.registry.instances.length d'.instances).get? name)).map ψ := by
    rw [seeing_readyFor hl, seeing_readyFor hl, hm.instancesWith_append hl h, instancesWith,
      hm.instances, Table.get?_append, hout]
    simp only [Table.get?_mapValues, Table.get?_append, Option.map_or, Option.or_assoc, Option.or_none,
      h.get?_registry hl]
  rw [hsame, hid]
  rfl

end

/-! ## The ids of the schemas -/

section

variable {bodies bodies' ids' : Table InstanceId} {t t' : Table Json}
variable {refer refer' : Table InstanceId → String → Option InstanceId}

theorem Assigned.append (hids : Assigned bodies refer seen t ids)
    (hids' : Assigned bodies refer (seen ++ ids) t' ids') :
    Assigned bodies refer seen (t ++ t') (ids ++ ids') := by
  induction hids with
  | nil => simpa using hids'
  | cons first others ih =>
      refine .cons first (ih ?_)
      simpa using hids'

/-- Schemas get the corresponding ids wherever each of them does. -/
theorem Assigned.carry (hids : Assigned bodies refer seen t ids) (before : Table InstanceId)
    (hid : ∀ (seen' : Table InstanceId) name body id,
      (∀ other ∈ seen'.names, other ∈ seen.names ∨ other ∈ t.names) → (name, body) ∈ t →
        idOf bodies (refer seen') name body = some id →
          idOf bodies' (refer' (before ++ seen'.mapValues ψ)) name body = some (ψ id)) :
    Assigned bodies' refer' (before ++ seen.mapValues ψ) t (ids.mapValues ψ) := by
  induction hids with
  | nil => exact .nil
  | @cons seen ids name body rest id first others ih =>
      have hfirst := hid seen name body id (fun _ => Or.inl) List.mem_cons_self first
      refine .cons hfirst ?_
      have hseen : before ++ seen.mapValues ψ ++ [(name, ψ id)]
          = before ++ (seen ++ [(name, id)] : Table InstanceId).mapValues ψ := by
        rw [Table.mapValues_append, List.append_assoc]
        rfl
      rw [hseen]
      refine ih fun seen' other otherBody otherId hnames hmem => ?_
      refine hid seen' other otherBody otherId (fun x hx => ?_) (List.mem_cons_of_mem _ hmem)
      rcases hnames x hx with hx | hx
      · rw [Table.names_append, List.mem_append] at hx
        refine hx.imp_right fun hx => ?_
        rw [List.mem_singleton.1 hx]
        exact List.mem_cons_self
      · exact Or.inr (List.mem_cons_of_mem _ hx)

end

section

variable {name : String} {body : Json}

/-- A name that is no schema has no body. -/
theorem get?_bodyIds_of_not_mem (hname : name ∉ d.schemas.names) : (l.bodyIds d).get? name = none :=
  get?_bodyIds_eq_none_iff.2 fun _ hmem => absurd (List.mem_map.2 ⟨_, hmem, rfl⟩) hname

include hl hm h in
/-- A schema of the first document gets the corresponding id. -/
theorem Leaves.idOf_first (hunused' : m.Unused d')
    (hfresh : ∀ name ∈ d'.schemas.names, name ∉ m.instances.names)
    (hseen : ∀ name ∈ seen.names, name ∈ d.schemas.names) {id : InstanceId}
    (hid : idOf (l.bodyIds d) ((l.readyFor d).seeing seen) name body = some id) :
    idOf (l.bodyIds (d.append d')) ((l.readyFor (d.append d')).seeing (seen.mapValues ψ)) name body
      = some (ψ id) := by
  unfold idOf at hid ⊢
  cases halias : aliasTarget? body with
  | none =>
      simp only [halias] at hid ⊢
      rw [h.bodies, Table.get?_mapValues, Table.get?_append, hid]
      rfl
  | some target =>
      simp only [halias] at hid ⊢
      rw [h.bodies, Table.get?_mapValues, Table.get?_append]
      cases hbody : (l.bodyIds d).get? target with
      | some found =>
          rw [hbody] at hid
          cases hid
          rfl
      | none =>
          rw [hbody, Option.none_or] at hid
          have hout := hm.not_mem_of_seeing hl hunused' hfresh hseen hid
          have hsame := hm.seeing_first hl h hunused' hfresh hseen [] (by simp [Table.names]) hid
          rw [List.append_nil] at hsame
          rw [get?_bodyIds_of_not_mem hout, Option.or_none, Option.map_none, Option.none_or, hsame]

include hl hm h in
/-- A schema of the second document gets the corresponding id, when the first has its ids. -/
theorem Leaves.idOf_second (hunused : l.Unused d) (hunused' : m.Unused d')
    (hids : Assigned (l.bodyIds d) (l.readyFor d).seeing [] d.schemas ids)
    (hnames : d.schemas.names.Nodup) (hmem : (name, body) ∈ d'.schemas) :
    idOf (l.bodyIds (d.append d'))
        ((l.readyFor (d.append d')).seeing ((ids ++ seen : Table InstanceId).mapValues ψ)) name body
      = (idOf (m.bodyIds d') ((m.readyFor d').seeing seen) name body).map ψ := by
  have hschema {other : String} (hother : other ∈ d'.schemas.names) : other ∉ d.schemas.names :=
    (hm.not_mem_schemas hunused' hother).2
  unfold idOf
  cases halias : aliasTarget? body with
  | none =>
      have hname : name ∈ d'.schemas.names := List.mem_map.2 ⟨_, hmem, rfl⟩
      simp only
      rw [h.bodies, Table.get?_mapValues, Table.get?_append, get?_bodyIds_of_not_mem (hschema hname),
        Option.none_or]
  | some target =>
      simp only
      rw [h.bodies, Table.get?_mapValues, Table.get?_append, hm.seeing_second hl h, ← Option.map_or]
      cases hbody : (l.bodyIds d).get? target with
      | none => rw [Option.none_or]
      | some found =>
          -- a schema of the first document is an entry when the second is loaded
          obtain ⟨other, hother, hown⟩ := exists_of_get?_bodyIds hbody
          have hname : target ∈ d.schemas.names := List.mem_map.2 ⟨_, hother, rfl⟩
          have hold : l.registry.get? target = none :=
            Table.get?_eq_none_iff.2 (hunused.schemas target hname)
          have hentry : m.registry.get? target = some found := by
            rw [hm.get?, hold, Option.none_or, get?_of_own hids hnames hother hown, hbody]
          rw [get?_bodyIds_of_not_mem fun hsecond => hschema hsecond hname, seeing_readyFor hm.sound,
            hentry]
          rfl

include hl hm h in
/-- **The schemas of both documents get the corresponding ids.** -/
theorem Leaves.assigned_append (hunused : l.Unused d) (hunused' : m.Unused d')
    (hfresh : ∀ name ∈ d'.schemas.names, name ∉ m.instances.names)
    (hnames : d.schemas.names.Nodup) {ids' : Table InstanceId}
    (hids : Assigned (l.bodyIds d) (l.readyFor d).seeing [] d.schemas ids)
    (hids' : Assigned (m.bodyIds d') (m.readyFor d').seeing [] d'.schemas ids') :
    Assigned (l.bodyIds (d.append d')) (l.readyFor (d.append d')).seeing [] (d.append d').schemas
      ((ids ++ ids' : Table InstanceId).mapValues ψ) := by
  have hfirst : Assigned (l.bodyIds (d.append d')) (l.readyFor (d.append d')).seeing [] d.schemas
      (ids.mapValues ψ) := by
    refine hids.carry [] fun seen name body id hseen _ hid => ?_
    refine hm.idOf_first hl h hunused' hfresh (fun other hother => ?_) hid
    exact (hseen other hother).resolve_left List.not_mem_nil
  have hsecond : Assigned (l.bodyIds (d.append d')) (l.readyFor (d.append d')).seeing
      (ids.mapValues ψ ++ Table.mapValues ψ []) d'.schemas (ids'.mapValues ψ) := by
    refine hids'.carry (ids.mapValues ψ) fun seen name body id _ hmem hid => ?_
    rw [← Table.mapValues_append, hm.idOf_second hl h hunused hunused' hids hnames hmem, hid]
    rfl
  rw [Table.mapValues_append]
  refine hfirst.append ?_
  rw [List.nil_append]
  exact List.append_nil (ids.mapValues ψ) ▸ hsecond

end

end

/-! ## The bodies -/

section

variable {φ ψ : InstanceId → InstanceId} {ids ids' : Table InstanceId} {r r' : Registry} {wide : Scope}
variable (hl : l.Sound) (h : l.Joins (l.loaded d ids r) d d' φ ψ)
variable (hr : fill (l.assigned d ids).scope (l.pendingOf d) (l.readyFor d).registry = .ok r)

/-- What was taken for both documents is still empty. -/
theorem Joins.instance?_place (h : l.Joins m d d' φ ψ) {id : InstanceId}
    (hid : id ∈ (l.pendingOf d ++ m.pendingOf d').map Pending.id) :
    (l.readyFor (d.append d')).registry.Has (ψ id) ∧
      (l.readyFor (d.append d')).registry.instance? (ψ id) = some (.schema {}) := by
  have hids := h.pending.map Pending.id
  rw [List.map_map] at hids
  have hmem : ψ id ∈ (l.pendingOf (d.append d')).map Pending.id := by
    refine hids.mem_iff.1 ?_
    obtain ⟨p, hp, rfl⟩ := List.mem_map.1 hid
    exact List.mem_map.2 ⟨p, hp, rfl⟩
  obtain ⟨hle, hhas⟩ := mem_ids_pendingOf.1 hmem
  refine ⟨hhas, ?_⟩
  rw [registry_readyFor] at hhas ⊢
  exact l.registry.instance?_reserveMany hle hhas

include hr in
/-- The ids taken for the first document are there when it has been loaded. -/
theorem has_loaded {id : InstanceId} (hid : (l.readyFor d).registry.Has id) :
    (l.loaded d ids r).registry.Has id := Nat.lt_of_lt_of_le hid (fill_keeps hr).2.1

include hl h hr in
/-- The bodies of the first document can be read with room for the second. -/
theorem Joins.inStep_first : (l.readyFor d).registry.InStep φ (l.readyFor (d.append d')).registry := by
  have hext : l.registry.Extends (l.readyFor d).registry := by
    rw [registry_readyFor]
    exact l.registry.extends_reserveMany _
  have hroom := h.room
  have hplaces {id : InstanceId} (hid : l.registry.instances.length ≤ id.index)
      (hhas : (l.readyFor d).registry.Has id) :
      (l.readyFor (d.append d')).registry.instance? (φ id) = some (.schema {}) := by
    have hmem := mem_ids_pendingOf.2 ⟨hid, hhas⟩
    rw [← h.agree id (has_loaded hr hhas)]
    exact (h.instance?_place (by rw [List.map_append]; exact List.mem_append_left _ hmem)).2
  rw [registry_readyFor] at hplaces hroom ⊢
  rw [registry_readyFor l (d.append d')] at hplaces hroom ⊢
  refine (Registry.inStep_reserveMany hl.closed _).claim hl.closed (fun id hid => ?_) h.injective_room
    (fun id hid hhas => hplaces hid hhas) fun j => ?_
  · rw [shift_of_lt hid, ← h.agree id (has_loaded hr (hext.has hid)), h.old id hid]
  · rw [← Registry.length_reserveMany]
    exact hroom j

include h hr in
/-- The room for the second document stays while the bodies of the first are read. -/
theorem Joins.length_first {s : Registry} (hstep : r.InStep φ s) : s.instances.length
    = r.instances.length + (d'.instances.length + (ownBodies d'.schemas).length) := by
  obtain ⟨x, hx⟩ := Nat.exists_eq_add_of_le (fill_keeps hr).2.1
  have hnext : φ ⟨r.instances.length⟩ = ⟨s.instances.length⟩ := hstep.next 0
  rw [hx, h.room x, length_readyFor_append] at hnext
  rw [← InstanceId.mk.inj hnext, hx, Nat.add_right_comm]

include h hr in
/-- No body of the first document is put where one of the second belongs. -/
theorem Joins.not_mem_first {id : InstanceId}
    (hid : (l.loaded d ids r).registry.instances.length ≤ id.index) :
    ψ id ∉ ((l.pendingOf d).map (Pending.rename φ)).map Pending.id := by
  rw [List.map_map]
  intro hmem
  obtain ⟨p, hp, heq⟩ := List.mem_map.1 hmem
  have hhas := has_loaded hr (pendingOf_below hp)
  have hsame : p.id = id := h.injective _ _ ((h.agree _ hhas).trans heq)
  rw [hsame] at hhas
  exact absurd hhas (Nat.not_lt.2 hid)

include h hr in
/-- When those of the first document have been read so, the bodies of the second can be read. The names that
    the first document gave are not there yet. -/
theorem Joins.inStep_second (hm : (l.loaded d ids r).Sound) {s : Registry}
    (hs : fill wide ((l.pendingOf d).map (Pending.rename φ)) (l.readyFor (d.append d')).registry = .ok s)
    (hstep : r.InStep φ s) :
    Registry.InStepUnder l.registry.entries ψ ((l.loaded d ids r).readyFor d').registry s := by
  have hentries : r.entries = l.registry.entries := (fill_keeps hr).1
  have hclosed : r.Closed := by
    refine ⟨fun entry hentry => ?_, hm.closed.instances⟩
    rw [hentries] at hentry
    exact hm.closed.entries entry (List.mem_append_left _ hentry)
  have hready : { ((l.loaded d ids r).readyFor d').registry with entries := l.registry.entries }
      = r.reserveMany (d'.instances.length + (ownBodies d'.schemas).length) := by
    rw [registry_readyFor, ← hentries]
    rfl
  show Registry.InStep ψ { ((l.loaded d ids r).readyFor d').registry with entries := _ } s
  rw [hready]
  refine hstep.claim hclosed h.agree h.injective (fun id hle hhas => ?_) fun j => ?_
  · have hmem : id ∈ ((l.loaded d ids r).pendingOf d').map Pending.id := by
      refine mem_ids_pendingOf.2 ⟨hle, ?_⟩
      rw [registry_readyFor]
      exact hhas
    obtain ⟨hplace, hempty⟩ :=
      h.instance?_place (by rw [List.map_append]; exact List.mem_append_right _ hmem)
    rw [(fill_keeps hs).2.2 _ hplace (h.not_mem_first hr hle), hempty]
  · have hnext := h.next j
    rw [registry_readyFor, Registry.length_reserveMany] at hnext
    rw [h.length_first hr hstep]
    exact hnext

include hl h hr in
/-- **The bodies of both documents can be read one after the other** in a scope with the names of both. -/
theorem Joins.fill_append (hm : (l.loaded d ids r).Sound)
    (hfirst : (l.assigned d ids).scope.Widens φ wide)
    (hsecond : ((l.loaded d ids r).assigned d' ids').scope.Widens ψ wide)
    (hr' : fill ((l.loaded d ids r).assigned d' ids').scope ((l.loaded d ids r).pendingOf d')
      ((l.loaded d ids r).readyFor d').registry = .ok r') :
    ∃ s, fill wide ((l.pendingOf d ++ (l.loaded d ids r).pendingOf d').map (Pending.rename ψ))
        (l.readyFor (d.append d')).registry = .ok s ∧
      Registry.InStepUnder l.registry.entries ψ r' s := by
  obtain ⟨s, hs, hstep⟩ := fill_wider Registry.InStep.addsAlike Registry.InStep.putsAlike hfirst
    (h.inStep_first hl hr) hr
  obtain ⟨s', hs', hstep'⟩ := fill_wider (Registry.InStepUnder.addsAlike _)
    (Registry.InStepUnder.putsAlike _) hsecond (h.inStep_second hr hm hs hstep) hr'
  refine ⟨s', ?_, hstep'⟩
  rw [List.map_append, map_rename_congr fun p hp => h.agree _ (has_loaded hr (pendingOf_below hp))]
  exact Loader.fill_append.2 ⟨s, hs, hs'⟩

end

/-! ## Loaders -/

section

variable {φ ψ : InstanceId → InstanceId} {ids ids' : Table InstanceId} {r : Registry}
variable (hl : l.Sound) (hm : l.Leaves d ids (l.loaded d ids r))
variable (h : l.Joins (l.loaded d ids r) d d' φ ψ)

include hl hm h

/-- The bodies of both documents see all names that those of the first do. -/
theorem Joins.widens_first
    (hr : fill (l.assigned d ids).scope (l.pendingOf d) (l.readyFor d).registry = .ok r)
    (hstages : l.Stages (l.assigned d ids)) (hunused' : (l.loaded d ids r).Unused d')
    (hfresh : ∀ name ∈ d'.schemas.names, name ∉ (l.loaded d ids r).instances.names)
    (hids' : ids'.names = d'.schemas.names) :
    (l.assigned d ids).scope.Widens φ
      (l.assigned (d.append d') ((ids ++ ids' : Table InstanceId).mapValues ψ)).scope := by
  refine ⟨rfl, fun name id hid => ?_⟩
  have hschemas : ∀ name ∈ (ids'.mapValues ψ).names, name ∈ d'.schemas.names := by
    rw [Table.names_mapValues, hids']
    exact fun _ hname => hname
  have hsame := hm.seeing_first hl h hunused' hfresh (fun name hname => hm.names ▸ hname) _ hschemas hid
  rw [← Table.mapValues_append, h.agree id (has_loaded hr (hstages.has_of_target? hl hid))] at hsame
  exact hsame

/-- The bodies of both documents see all names that those of the second do. -/
theorem Joins.widens_second : ((l.loaded d ids r).assigned d' ids').scope.Widens ψ
    (l.assigned (d.append d') ((ids ++ ids' : Table InstanceId).mapValues ψ)).scope :=
  ⟨rfl, fun name _ hid => (hm.seeing_second hl h name).trans (congrArg (Option.map ψ) hid)⟩

/-- What was read for both documents one after the other is what is read for both at once. -/
theorem Joins.loaded_inStep {τ : InstanceId → InstanceId} {r' s s' : Registry}
    (hstages : l.Stages (l.assigned (d.append d') ((ids ++ ids' : Table InstanceId).mapValues ψ)))
    (hstep : Registry.InStepUnder l.registry.entries ψ r' s)
    (hshuffles : Shuffles (l.readyFor (d.append d')).registry.instances.length τ s s') :
    ((l.loaded d ids r).loaded d' ids' r').InStep (τ ∘ ψ)
      (l.loaded (d.append d') ((ids ++ ids' : Table InstanceId).mapValues ψ) s') := by
  -- reading moves inline instances only, and no name refers to one
  have hnamed {t u : Table InstanceId} (htu : u = t.mapValues ψ)
      (hu : ∀ entry ∈ u, (l.readyFor (d.append d')).registry.Has entry.2) :
      u = t.mapValues (τ ∘ ψ) := by
    rw [← Table.mapValues_mapValues, ← htu]
    exact (Table.mapValues_eq_self fun entry hentry => hshuffles.below _ (hu entry hentry)).symm
  have hentries : l.registry.entries ++ (ids ++ ids' : Table InstanceId).mapValues ψ
      = (l.registry.entries ++ ids ++ ids' : Table InstanceId).mapValues (τ ∘ ψ) := by
    refine hnamed ?_ fun entry hentry => ?_
    · rw [List.append_assoc, Table.mapValues_append _ l.registry.entries,
        Table.mapValues_eq_self fun entry hentry => h.old _ (hl.closed.entries entry hentry)]
    · rcases List.mem_append.1 hentry with hold | hnew
      · exact hstages.closed.entries entry hold
      · exact hstages.stagedSchemas entry hnew
  have hinstances : l.instancesWith (d.append d')
      = ((l.loaded d ids r).instancesWith d').mapValues (τ ∘ ψ) := by
    refine hnamed (hm.instancesWith_append hl h) fun entry hentry => ?_
    rcases List.mem_append.1 hentry with hold | hnew
    · exact hstages.registry.has (hl.instances entry hold)
    · exact hstages.stagedInstances entry (List.mem_append_right _ hnew)
  have hregistry := (hstep.trans hshuffles.inStep).withEntries (l.registry.entries ++ ids ++ ids')
  rw [← hentries] at hregistry
  exact ⟨rfl, hregistry, hinstances, rfl, rfl⟩

end

/-- Two documents that are loaded one after the other are loaded as one. -/
theorem load_append (hl : l.Sound) (hd : d.Proper) (hd' : d'.Proper) {n : Loader}
    (hfresh : ∀ name ∈ d'.schemas.names, name ∉ m.instances.names)
    (hm : l.load d = (.ok (), m)) (hn : m.load d' = (.ok (), n)) :
    (d.append d').Proper ∧ ∃ σ n', l.load (d.append d') = (.ok (), n') ∧ n.InStep σ n' ∧
      n'.registry.instances.length = n.registry.instances.length ∧
      ∀ id, l.registry.Has id → σ id = id := by
  have hsound := (load_gains_or_keeps hl hd).1
  rw [hm] at hsound
  obtain ⟨hvalid, hunused, ids, r, hids, hr, rfl⟩ := (load_eq_ok hl hd).1 hm
  obtain ⟨-, hunused', ids', r', hids', hr', rfl⟩ := (load_eq_ok hsound hd').1 hn
  have hleaves : l.Leaves d ids (l.loaded d ids r) := ⟨hsound, hids.names, rfl, rfl⟩
  obtain ⟨φ, ψ, h⟩ := exists_joins (l := l) (d := d) (m := l.loaded d ids r) d' (fill_keeps hr).2.1
  have hboth := hleaves.unused_append hunused' hunused
  have hproper := hleaves.proper_append hunused' hd hd'
  have hassigned := hleaves.assigned_append hl h hunused hunused' hfresh hd.schemas.names hids hids'
  have hstages := stages_assigned hl hproper.schemas.names hproper.instances.names hboth hassigned
  have hfirst := h.widens_first hl hleaves hr
    (stages_assigned hl hd.schemas.names hd.instances.names hunused hids) hunused' hfresh hids'.names
  obtain ⟨s, hs, hstep⟩ := h.fill_append hl hr hsound hfirst (h.widens_second hl hleaves) hr'
  obtain ⟨τ, s', hs', hshuffles⟩ := fill_pendingOf hl hstages h.pending hs
  refine ⟨hproper, τ ∘ ψ, _, (load_eq_ok hl hproper).2 ⟨hvalid, hboth, _, s', hassigned, hs', rfl⟩,
    h.loaded_inStep hl hleaves hstages hstep hshuffles, ?_, fun id hid => ?_⟩
  · obtain ⟨x, hx⟩ := Nat.exists_eq_add_of_le (fill_keeps hr').2.1
    have hnext : ψ ⟨r'.instances.length⟩ = ⟨s.instances.length⟩ := hstep.next 0
    rw [hx, h.next x, ← hx] at hnext
    exact hshuffles.length.trans (InstanceId.mk.inj hnext).symm
  · rw [Function.comp_apply, h.old id hid]
    exact hshuffles.below id (hstages.registry.has hid)

/-! ## Sources -/

/-- **Documents one after the other and as one.** Take two documents that are loaded one after the other, no
    schema of the second having the name of an instance that is known by then. The document with the entries
    of the first and then those of the second is loaded too. The loader that is left is the same up to a
    renaming, which keeps the ids of earlier documents: it has the same names in the same order, those of both
    documents after the earlier ones, the same instances up to the ids in them and as many, and it generates
    the same under all options. -/
theorem Reachable.feed_append (h : l.Reachable) {first second : Source} {n : Loader}
    (hfirst : first.document = .ok d) (hsecond : second.document = .ok d')
    (hm : l.feed first = (.ok (), m)) (hn : m.feed second = (.ok (), n))
    (hfresh : ∀ name ∈ d'.schemas.names, name ∉ d.instances.names ∧ name ∉ l.instances.names) :
    (∃ source : Source, source.document = .ok (d.append d')) ∧
    ∃ σ n', (∀ source : Source, source.document = .ok (d.append d') → l.feed source = (.ok (), n')) ∧
      n.InStep σ n' ∧ n'.registry.instances.length = n.registry.instances.length ∧
      (∀ id, l.registry.Has id → σ id = id) ∧
      n'.registry.entries.names = n.registry.entries.names ∧
      n.registry.entries.names = l.registry.entries.names ++ (d.schemas.names ++ d'.schemas.names) ∧
      ∀ o, generate n'.registry o = generate n.registry o := by
  have hl := h.sound
  have hn' : n.Sound := by
    have hsound := ((h.feed first).feed second).sound
    rw [hm, hn] at hsound
    exact hsound
  have hd := first.proper_of_document hfirst
  rw [feed_of_document_eq_ok hfirst] at hm
  rw [feed_of_document_eq_ok hsecond] at hn
  have hknown : ∀ name ∈ d'.schemas.names, name ∉ m.instances.names := by
    obtain ⟨-, -, ids, r, -, -, rfl⟩ := (load_eq_ok hl hd).1 hm
    intro name hname
    rw [loaded, instancesWith, Table.names_append, names_numbered, List.mem_append, not_or]
    exact (hfresh name hname).symm
  obtain ⟨hproper, σ, n', hload, hstep, hlength, hkept⟩ :=
    load_append hl hd (second.proper_of_document hsecond) hknown hm hn
  have hsame : n'.registry.entries.names = n.registry.entries.names := by
    rw [hstep.registry.entries, Table.names_mapValues]
  refine ⟨hproper.exists_source, σ, n', fun source hsource => ?_, hstep, hlength, hkept, hsame, ?_,
    generate_eq_of_mirrors hstep.registry.mirrors hn'.closed⟩
  · rw [feed_of_document_eq_ok hsource, hload]
  · have hgains := (load_gains_or_keeps hl hproper).2
    rw [hload] at hgains
    obtain ⟨new, hentries, hnew⟩ := hgains.entries
    rw [← hsame, hentries, Table.names_append, hnew, Document.append, Table.names_append]

/-- Prices in a currency that is an instance, and a second name for them. -/
def prices : Document where
  instances := [("Currency", .object [("$values", .list [.text "EUR", .text "USD"])])]
  schemas :=
    [("Price", .object [("amount", .text "Number"), ("currency", aliasOf "Currency")]),
     ("Cost", aliasOf "Price")]

/-- Offers that refer to them, to themselves and to an instance of their own. -/
def offers : Document where
  instances := [("Terms", .object [("price", aliasOf "Cost")])]
  schemas :=
    [("Offer", .object
       [("terms", aliasOf "Terms"), ("currency", aliasOf "Currency"), ("next", aliasOf "Offer")]),
     ("Order", aliasOf "Offer")]

/-- The prices as something that can be given. -/
def pricesSource : Source :=
  .value prices.toJson (by simp [Document.toJson, prices, aliasOf, Table.names])

/-- The offers as something that can be given. -/
def offersSource : Source :=
  .value offers.toJson (by simp [Document.toJson, offers, aliasOf, Table.names])

/-- The offers could as well stand behind the prices. -/
theorem feed_prices_offers :
    ∃ m n n' σ, feed { options := {} } pricesSource = (.ok (), m) ∧ m.feed offersSource = (.ok (), n) ∧
      (∀ source : Source, source.document = .ok (prices.append offers) →
        feed { options := {} } source = (.ok (), n')) ∧
      n.InStep σ n' ∧ n.registry.entries.names = ["Price", "Cost", "Offer", "Order"] ∧
      generate n'.registry {} = generate n.registry {} := by
  have hm : (feed { options := {} } pricesSource).1 = .ok () := by decide +kernel
  have hn : ((feed { options := {} } pricesSource).2.feed offersSource).1 = .ok () := by decide +kernel
  have hfirst : pricesSource.document = .ok prices := rfl
  have hsecond : offersSource.document = .ok offers := rfl
  obtain ⟨-, σ, n', hboth, hstep, -, -, -, hnames, hgenerate⟩ :=
    (Reachable.start {}).feed_append hfirst hsecond (Prod.ext hm rfl) (Prod.ext hn rfl) (by decide)
  exact ⟨_, _, n', σ, Prod.ext hm rfl, Prod.ext hn rfl, hboth, hstep, hnames, hgenerate {}⟩

/-- A schema with the name of the instance that the prices refer to. -/
def currency : Document where
  schemas := [("Currency", .object [("code", .text "String")])]

/-- Prices refer to the instance, but to the schema when it stands in the same document. -/
example :
    let l := ((feed { options := {} } pricesSource).2.load currency).2
    let l' := (load { options := {} } (prices.append currency)).2
    (l.registry.get? "Price", l.registry.get? "Currency") = (some ⟨1⟩, some ⟨2⟩) ∧
      l'.registry.entries = l.registry.entries ∧
      (l.registry.instance? ⟨1⟩).map Instance.ids = some [⟨0⟩] ∧
      (l'.registry.instance? ⟨1⟩).map Instance.ids = some [⟨2⟩] := by
  decide +kernel

end Loader

end SchemaTyping
