import SchemaTyping.Proofs.Document.Loading
import SchemaTyping.Proofs.Document.Phases

set_option autoImplicit false

/-! # What names refer to after a document

The bodies of a document are read when all of its schemas have their ids, so a reference in a body is the
instance that its target refers to in the loader that is left: the entry of the registry, or the named
instance if there is no such entry. An alias is assigned its id when only the schemas before it have
theirs. Its target is that same instance, unless the target is an alias that does not stand before; then
such an entry is passed over and only named instances count (`Loader.Reachable.references_of_feed`). -/

namespace SchemaTyping

namespace Loader

variable {l l' : Loader} {d : Document}

/-- The instance a name refers to between two documents. -/
def refer (l : Loader) (name : String) : Option InstanceId :=
  (l.registry.get? name).or (l.instances.get? name)

/-- Is the name that of an alias among these schemas? -/
def IsAlias (t : Table Json) (name : String) : Prop :=
  ∃ body, (name, body) ∈ t ∧ (aliasTarget? body).isSome

/-! ## The loader that is left -/

/-- The named instances after a document. -/
def instancesWith (l : Loader) (d : Document) : Table InstanceId :=
  l.instances ++ numbered l.registry.instances.length d.instances

/-- The loader after a document whose schemas got these ids, when its bodies have been read. -/
def loaded (l : Loader) (d : Document) (ids : Table InstanceId) (r : Registry) : Loader where
  options := l.options
  registry := { r with entries := l.registry.entries ++ ids }
  instances := l.instancesWith d

/-- **A document is loaded** exactly when its names are new, every schema is assigned an id and every body
    can be read, and this is the loader it leaves. -/
theorem load_eq_ok (hl : l.Sound) (hd : d.Proper) :
    l.load d = (.ok (), l') ↔
      l.options.validate = .ok () ∧ l.Unused d ∧
        ∃ ids r, Assigned (l.bodyIds d) (l.readyFor d).seeing [] d.schemas ids ∧
          fill (l.assigned d ids).scope (l.pendingOf d) (l.readyFor d).registry = .ok r ∧
          l' = l.loaded d ids r := by
  have hcommitted (ids : Table InstanceId) {r : Registry}
      (hr : fill (l.assigned d ids).scope (l.pendingOf d) (l.readyFor d).registry = .ok r) :
      committed { l.assigned d ids with registry := r } = l.loaded d ids r := by
    have hentries : r.entries = l.registry.entries := (fill_keeps hr).1
    simp [committed, cleared, withNames, loaded, instancesWith, assigned, readyFor, withInstances,
      hl.stagedInstances, hentries]
  cases hvalid : l.options.validate with
  | error e =>
      rw [load_eq_exec, hvalid]
      simp
  | ok =>
      rw [load_eq hl hd hvalid]
      constructor
      · intro h
        rcases hrun : exec (stage d) l with ⟨outcome, staged⟩
        rw [hrun] at h
        cases outcome with
        | error e => cases h
        | ok =>
            obtain ⟨hunused, ids, r, hids, hr, rfl⟩ :=
              (exec_stage_eq_ok hl hd.schemas.names hd.instances.names).1 hrun
            cases h
            exact ⟨rfl, hunused, ids, r, hids, hr, hcommitted ids hr⟩
      · rintro ⟨-, hunused, ids, r, hids, hr, rfl⟩
        rw [(exec_stage_eq_ok hl hd.schemas.names hd.instances.names).2 ⟨hunused, ids, r, hids, hr, rfl⟩,
          ← hcommitted ids hr]

/-- What bodies refer to is what names refer to afterwards. -/
theorem refer_loaded (hl : l.Sound) (ids : Table InstanceId) (r : Registry) :
    (l.loaded d ids r).refer = (l.assigned d ids).target? := by
  funext name
  simp only [refer, target?, loaded, instancesWith, assigned, readyFor, withInstances, Registry.get?,
    Registry.reserveMany, Table.get?_append, Option.or_assoc, hl.stagedInstances, List.nil_append]

/-! ## Ids of names -/

section

variable {ids : Table InstanceId} {r : Registry}

theorem get?_loaded (hunused : l.Unused d) {name : String} (hname : name ∈ d.schemas.names) :
    (l.loaded d ids r).registry.get? name = ids.get? name := by
  have hold : l.registry.entries.get? name = none :=
    Table.get?_eq_none_iff.2 (hunused.schemas name hname)
  rw [Registry.get?, loaded, Table.get?_append, hold, Option.none_or]

/-- A schema has the id that it gets when it sees the schemas before it. -/
theorem get?_of_assigned (hids : Assigned (l.bodyIds d) (l.readyFor d).seeing [] d.schemas ids)
    (hnames : d.schemas.names.Nodup) {before after : Table Json} {name : String} {body : Json}
    (hsplit : d.schemas = before ++ (name, body) :: after) :
    ∃ f, ids = .ofNames d.schemas.names f ∧ ids.get? name = some (f name) ∧
      idOf (l.bodyIds d) ((l.readyFor d).seeing (.ofNames before.names f)) name body
        = some (f name) := by
  obtain ⟨f, rfl⟩ := hids.exists_ofNames hnames
  refine ⟨f, rfl, ?_, assigned_ofNames_iff.1 hids before name body after hsplit⟩
  have hname : name ∈ d.schemas.names := by
    rw [hsplit, Table.names_append]
    exact List.mem_append_right _ List.mem_cons_self
  rw [Table.get?_ofNames, if_pos hname]

/-- A schema with a body of its own has the id that was taken for it. -/
theorem get?_of_own (hids : Assigned (l.bodyIds d) (l.readyFor d).seeing [] d.schemas ids)
    (hnames : d.schemas.names.Nodup) {name : String} {body : Json} (hmem : (name, body) ∈ d.schemas)
    (hown : aliasTarget? body = none) : ids.get? name = (l.bodyIds d).get? name := by
  obtain ⟨before, after, hsplit⟩ := List.append_of_mem hmem
  obtain ⟨f, -, hname, hid⟩ := get?_of_assigned hids hnames hsplit
  rw [hname, ← hid]
  simp only [idOf, hown]

/-- The ids taken for bodies are what their names refer to afterwards. -/
theorem get?_loaded_of_mem_bodyIds (hunused : l.Unused d)
    (hids : Assigned (l.bodyIds d) (l.readyFor d).seeing [] d.schemas ids)
    (hnames : d.schemas.names.Nodup) {name : String} {id : InstanceId} (h : (name, id) ∈ l.bodyIds d) :
    (l.loaded d ids r).registry.get? name = some id := by
  have hdistinct : (l.bodyIds d).names.Nodup := by
    rw [bodyIds, names_numbered]
    exact nodup_names_ownBodies hnames
  have hid := Table.get?_of_mem hdistinct h
  obtain ⟨body, hmem, hown⟩ := exists_of_get?_bodyIds hid
  rw [get?_loaded hunused (List.mem_map.2 ⟨_, hmem, rfl⟩), get?_of_own hids hnames hmem hown, hid]

theorem get?_instancesWith (hunused : l.Unused d) (hnames : d.instances.names.Nodup) {name : String}
    {id : InstanceId} (h : (name, id) ∈ numbered l.registry.instances.length d.instances) :
    (l.instancesWith d).get? name = some id := by
  rw [← names_numbered l.registry.instances.length d.instances] at hnames
  have hname : name ∈ d.instances.names := by
    rw [← names_numbered l.registry.instances.length d.instances]
    exact List.mem_map.2 ⟨_, h, rfl⟩
  have hold : l.instances.get? name = none := Table.get?_eq_none_iff.2 (hunused.instances name hname)
  rw [instancesWith, Table.get?_append, hold, Option.none_or, Table.get?_of_mem hnames h]

/-- The bodies of a document are described by the instances under their names. -/
theorem describes_loaded
    (hr : fill (l.assigned d ids).scope (l.pendingOf d) (l.readyFor d).registry = .ok r) :
    ∀ p ∈ l.pendingOf d, ∃ i, (l.loaded d ids r).registry.instance? p.id = some i ∧
      Describes (l.loaded d ids r).registry.instance? (l.assigned d ids).target? p.body i :=
  fill_describes (Nat.le_refl _) (fun _ hp => pendingOf_below hp) (nodup_ids_pendingOf l d) hr

/-- The instance a name refers to when these schemas have their ids. -/
theorem seeing_readyFor (hl : l.Sound) (seen : Table InstanceId) (name : String) :
    (l.readyFor d).seeing seen name =
      (l.registry.get? name).or ((seen.get? name).or ((l.instancesWith d).get? name)) := by
  simp only [seeing, target?, instancesWith, readyFor, withInstances, Registry.get?, Registry.reserveMany,
    Table.get?_append, hl.stagedInstances, List.nil_append]

/-- The id of an alias is that of its target, and that of the named instance if the target is an alias
    that does not stand before. -/
theorem get?_of_alias (hl : l.Sound) (hunused : l.Unused d)
    (hids : Assigned (l.bodyIds d) (l.readyFor d).seeing [] d.schemas ids)
    (hnames : d.schemas.names.Nodup) {before after : Table Json} {name target : String} {body : Json}
    (hsplit : d.schemas = before ++ (name, body) :: after) (halias : aliasTarget? body = some target) :
    ∃ id, ids.get? name = some id ∧
      (¬ IsAlias ((name, body) :: after) target → (l.assigned d ids).target? target = some id) ∧
      (IsAlias ((name, body) :: after) target → (l.loaded d ids r).instances.get? target = some id) := by
  obtain ⟨f, hsum, hname, hid⟩ := get?_of_assigned hids hnames hsplit
  have hdistinct : (before.names ++ Table.names ((name, body) :: after)).Nodup := by
    rw [← Table.names_append, ← hsplit]
    exact hnames
  simp only [idOf, halias] at hid
  rw [seeing_readyFor hl, Table.get?_ofNames] at hid
  refine ⟨f name, hname, fun hnot => ?_, fun his => ?_⟩
  · show (l.readyFor d).seeing ids target = some (f name)
    rw [seeing_readyFor hl, ← hid]
    cases hbody : (l.bodyIds d).get? target with
    | some found =>
        obtain ⟨otherBody, hmem, hown⟩ := exists_of_get?_bodyIds hbody
        have hold : l.registry.get? target = none :=
          Table.get?_eq_none_iff.2 (hunused.schemas target (List.mem_map.2 ⟨_, hmem, rfl⟩))
        rw [hold, get?_of_own hids hnames hmem hown, hbody]
        rfl
    | none =>
        -- the target is no schema from here on, so it is found among those before or not at all
        have hout : target ∉ Table.names ((name, body) :: after) := by
          intro hmem
          obtain ⟨⟨other, otherBody⟩, hentry, rfl⟩ := List.mem_map.1 hmem
          refine hnot ⟨otherBody, hentry, get?_bodyIds_eq_none_iff.1 hbody otherBody ?_⟩
          rw [hsplit]
          exact List.mem_append_right _ hentry
        have hwhere : target ∈ d.schemas.names ↔ target ∈ before.names := by
          rw [hsplit, Table.names_append, List.mem_append, or_iff_left hout]
        rw [hsum, Table.get?_ofNames, if_congr hwhere rfl rfl, Option.none_or]
  · obtain ⟨otherBody, hmem, hother⟩ := his
    have hschema : (target, otherBody) ∈ d.schemas := hsplit ▸ List.mem_append_right _ hmem
    have htarget : target ∈ Table.names ((name, body) :: after) := List.mem_map.2 ⟨_, hmem, rfl⟩
    have hbody : (l.bodyIds d).get? target = none := by
      refine get?_bodyIds_eq_none_iff.2 fun body' hbody' => ?_
      cases (Table.get?_of_mem hnames hbody').symm.trans (Table.get?_of_mem hnames hschema)
      exact hother
    have hold : l.registry.get? target = none :=
      Table.get?_eq_none_iff.2 (hunused.schemas target (List.mem_map.2 ⟨_, hschema, rfl⟩))
    have hseen : target ∉ before.names := fun h =>
      (List.nodup_append.1 hdistinct).2.2 target h target htarget rfl
    rwa [hbody, hold, if_neg hseen] at hid

end

/-! ## References -/

/-- **What the references of a document point to.** When a document has been loaded, every schema with a
    body of its own and every instance of the document is described by what is registered under its name,
    and each reference in it, however deep, is the instance its target refers to now: the entry of the
    registry if there is one, else the instance of that name from this document or an earlier one. An
    alias is that instance too, unless its target is an alias that does not stand before it; then it is
    the instance of that name whatever the registry has. -/
theorem Reachable.references_of_feed (h : l.Reachable) {source : Source}
    (hdocument : source.document = .ok d) (hfeed : l.feed source = (.ok (), l')) :
    (∀ name body, (name, body) ∈ d.schemas → aliasTarget? body = none →
      ∃ id i, l'.registry.get? name = some id ∧ l'.registry.instance? id = some i ∧
        Describes l'.registry.instance? l'.refer body i) ∧
    (∀ name body, (name, body) ∈ d.instances →
      ∃ id i, l'.instances.get? name = some id ∧ l'.registry.instance? id = some i ∧
        Describes l'.registry.instance? l'.refer body i) ∧
    ∀ before name body after target, d.schemas = before ++ (name, body) :: after →
      aliasTarget? body = some target →
      ∃ id, l'.registry.get? name = some id ∧
        (¬ IsAlias ((name, body) :: after) target → l'.refer target = some id) ∧
        (IsAlias ((name, body) :: after) target → l'.instances.get? target = some id) := by
  have hd := source.proper_of_document hdocument
  rw [feed_of_document_eq_ok hdocument] at hfeed
  obtain ⟨-, hunused, ids, r, hids, hr, rfl⟩ := (load_eq_ok h.sound hd).1 hfeed
  rw [refer_loaded h.sound]
  have hdescribes := describes_loaded hr
  refine ⟨fun name body hmem hown => ?_, fun name body hmem => ?_, ?_⟩
  · obtain ⟨p, hp, rfl, hid⟩ := exists_waiting "schemas"
      (l.registry.instances.length + d.instances.length) (mem_ownBodies.2 ⟨hmem, hown⟩)
    obtain ⟨i, hi, hdescribed⟩ := hdescribes p (List.mem_append_right _ hp)
    have hname := get?_loaded_of_mem_bodyIds (r := r) hunused hids hd.schemas.names hid
    exact ⟨p.id, i, hname, hi, hdescribed⟩
  · obtain ⟨p, hp, rfl, hid⟩ := exists_waiting "instances" l.registry.instances.length hmem
    obtain ⟨i, hi, hdescribed⟩ := hdescribes p (List.mem_append_left _ hp)
    exact ⟨p.id, i, get?_instancesWith hunused hd.instances.names hid, hi, hdescribed⟩
  · intro before name body after target hsplit halias
    obtain ⟨id, hid, hrefer, hheld⟩ :=
      get?_of_alias (r := r) h.sound hunused hids hd.schemas.names hsplit halias
    have hname : name ∈ d.schemas.names := by
      rw [hsplit, Table.names_append]
      exact List.mem_append_right _ List.mem_cons_self
    exact ⟨id, (get?_loaded hunused hname).trans hid, hrefer, hheld⟩

/-- A schema that is nothing but another name for an instance. -/
def aliasOf (target : String) : Json := .object [(Body.refKey, .text target)]

/-- Three names for one body, the first alias standing before the one that it names, and an instance with
    the name of the second. -/
def shadowedDocument : Json :=
  .object
    [("instances", .object [("B", .object [(Body.valuesKey, .list [.text "x"])])]),
     ("schemas", .object
       [("A", aliasOf "B"), ("B", aliasOf "C"), ("C", .object [("n", .text "Number")])])]

@[inherit_doc shadowedDocument]
def shadowedSource : Source :=
  .value shadowedDocument (by simp [shadowedDocument, aliasOf, Table.names])

/-- `B` is the instance of `C`, which stands after it and has a body; the target of `A` is an alias after
    it, so `A` is the instance that the document names `B`. -/
theorem references_of_shadowedSource :
    ∃ l', feed { options := {} } shadowedSource = (.ok (), l') ∧
      (∃ id, l'.registry.get? "B" = some id ∧ l'.refer "C" = some id) ∧
        ∃ id, l'.registry.get? "A" = some id ∧ l'.instances.get? "B" = some id := by
  have hok : (feed { options := {} } shadowedSource).1.isOk = true := by decide +kernel
  rcases hrun : feed { options := {} } shadowedSource with ⟨outcome, l'⟩
  rw [hrun] at hok
  cases outcome with
  | error e => cases hok
  | ok =>
      have hdocument : shadowedSource.document = .ok _ := rfl
      obtain ⟨-, -, haliases⟩ := (Reachable.start {}).references_of_feed hdocument hrun
      obtain ⟨a, ha, -, hnamed⟩ := haliases [] "A" (aliasOf "B")
        [("B", aliasOf "C"), ("C", .object [("n", .text "Number")])] "B" rfl rfl
      obtain ⟨b, hb, hentry, -⟩ := haliases [("A", aliasOf "B")] "B" (aliasOf "C")
        [("C", .object [("n", .text "Number")])] "C" rfl rfl
      refine ⟨l', rfl, ⟨b, hb, hentry ?_⟩, a, ha, hnamed ⟨aliasOf "C", by simp, rfl⟩⟩
      rintro ⟨body, hbody, halias⟩
      obtain rfl : body = .object [("n", .text "Number")] := by simpa using hbody
      simp [aliasTarget?, Body.refKey] at halias

/-- The registry that is left has one instance for `B`, and the reference to `B` is another. -/
theorem shadowed_alias_misses_registry :
    let l' := (feed { options := {} } shadowedSource).2
    (feed { options := {} } shadowedSource).1.isOk = true ∧
      l'.registry.get? "A" = some ⟨0⟩ ∧ l'.registry.get? "B" = some ⟨1⟩ := by
  decide +kernel

end Loader

end SchemaTyping
