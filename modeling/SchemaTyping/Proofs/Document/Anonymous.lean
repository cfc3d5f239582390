import SchemaTyping.Proofs.Document.Inlining
import SchemaTyping.Proofs.Document.Orphans
import SchemaTyping.Proofs.Document.Targets
import SchemaTyping.Proofs.Registry.Names

set_option autoImplicit false

/-! # Inline bodies stay anonymous

The instance of an inline body has no name when its document has been loaded: names are given to the ids
that were taken before any body was read (`Loader.nameable_loaded`). And it never gets one: a later
document can only give a further name to what its names refer to, and that has a name already, or to an
instance of its own (`Loader.Grows.anonymous`).

So the inline bodies of all documents that a loader takes have ids of their own, and a candidate that
points to one of them is always written out, whatever is registered (`Loader.exists_inline_ids`). -/

namespace SchemaTyping

/-- An instance without a name is written out. -/
theorem Resolver.instanceType_ne_reference {r : Resolver} {id : InstanceId}
    (h : ∀ name, (name, id) ∉ r.registry.entries) (next : Level) (path name : String) :
    r.instanceType next path id ≠ .ok (.reference name) := by
  have hnames : r.registry.namesOf id = [] :=
    List.eq_nil_iff_forall_not_mem.2 fun other hother => h other (Registry.mem_namesOf.1 hother)
  intro htype
  rw [instanceType, Registry.reference?_eq, hnames] at htype
  dsimp only at htype
  split at htype
  · obtain ⟨fields, -, hfields⟩ := Outcome.map_eq_ok.1 htype
    unfold TypeExpr.ofFields at hfields
    split at hfields <;> cases hfields
  · next values _ =>
      obtain ⟨literals, -, hliterals⟩ := Outcome.bind_eq_ok.1 htype
      cases hliterals
  · cases htype

namespace Loader

/-- An instance that no name of the loader stands for. -/
structure Anonymous (l : Loader) (id : InstanceId) : Prop where
  there : l.registry.Has id
  noEntry : ∀ name, (name, id) ∉ l.registry.entries
  noInstance : ∀ name, (name, id) ∉ l.instances

/-- `l'` has what `l` has, and further names for new instances or for those that have one. -/
structure Grows (l l' : Loader) : Prop where
  entries : l.registry.entries <+: l'.registry.entries
  instances : l.instances <+: l'.instances
  arena : l.registry.instances <+: l'.registry.instances
  anonymous : ∀ id, l.Anonymous id → l'.Anonymous id

variable {l l' l'' : Loader} {d : Document}

theorem Grows.refl (l : Loader) : l.Grows l where
  entries := List.prefix_rfl
  instances := List.prefix_rfl
  arena := List.prefix_rfl
  anonymous := fun _ h => h

theorem Grows.trans (h : l.Grows l') (h' : l'.Grows l'') : l.Grows l'' where
  entries := h.entries.trans h'.entries
  instances := h.instances.trans h'.instances
  arena := h.arena.trans h'.arena
  anonymous := fun id hid => h'.anonymous id (h.anonymous id hid)

theorem Grows.has (h : l.Grows l') {id : InstanceId} (hid : l.registry.Has id) : l'.registry.Has id :=
  Nat.lt_of_lt_of_le hid h.arena.length_le

theorem Grows.instance?_eq_some (h : l.Grows l') {id : InstanceId} {i : Instance}
    (hid : l.registry.instance? id = some i) : l'.registry.instance? id = some i :=
  (Registry.instance?_of_prefix h.arena (Registry.has_of_instance? hid)).trans hid

theorem Keeps.grows (h : l.Keeps l') : l.Grows l' where
  entries := h.entries ▸ List.prefix_rfl
  instances := h.instances ▸ List.prefix_rfl
  arena := h.arena
  anonymous := fun _ hid =>
    ⟨Nat.lt_of_lt_of_le hid.there h.arena.length_le, fun name => h.entries ▸ hid.noEntry name,
      fun name => h.instances ▸ hid.noInstance name⟩

/-! ## Names that a document gives -/

/-- What a document can give a name to: an instance that has one or whose id was taken for it. -/
structure Nameable (l : Loader) (d : Document) (id : InstanceId) : Prop where
  known : ¬ l.Anonymous id
  taken : (l.readyFor d).registry.Has id

theorem nameable_of_reserved {id : InstanceId} (hold : l.registry.instances.length ≤ id.index)
    (htaken : (l.readyFor d).registry.Has id) : l.Nameable d id where
  known := fun h => absurd h.there (Nat.not_lt.2 hold)
  taken := htaken

theorem has_readyFor (d : Document) {id : InstanceId} (hid : l.registry.Has id) :
    (l.readyFor d).registry.Has id := by
  rw [registry_readyFor]
  exact (l.registry.extends_reserveMany _).has hid

theorem nameable_of_mem_entries (hl : l.Sound) {name : String} {id : InstanceId}
    (h : (name, id) ∈ l.registry.entries) : l.Nameable d id where
  known := fun hid => hid.noEntry name h
  taken := has_readyFor d (hl.closed.entries _ h)

theorem nameable_of_mem_bodyIds {name : String} {id : InstanceId} (h : (name, id) ∈ l.bodyIds d) :
    l.Nameable d id := by
  obtain ⟨hle, hlt⟩ := index_of_mem_numbered h
  refine nameable_of_reserved (Nat.le_trans (Nat.le_add_right _ _) hle) ?_
  rw [Registry.Has, length_readyFor]
  exact hlt

theorem nameable_of_mem_instancesWith (hl : l.Sound) {name : String} {id : InstanceId}
    (h : (name, id) ∈ l.instancesWith d) : l.Nameable d id := by
  rcases List.mem_append.1 h with hold | hnew
  · exact ⟨fun hid => hid.noInstance name hold, has_readyFor d (hl.instances _ hold)⟩
  · obtain ⟨hle, hlt⟩ := index_of_mem_numbered hnew
    refine nameable_of_reserved hle ?_
    rw [Registry.Has, length_readyFor]
    exact Nat.lt_of_lt_of_le hlt (Nat.le_add_right _ _)

/-- The ids of schemas are among those that were taken and those that names refer to. -/
theorem Assigned.forall_mem {bodies seen ids : Table InstanceId}
    {refer : Table InstanceId → String → Option InstanceId} {P : InstanceId → Prop} {t : Table Json}
    (h : Assigned bodies refer seen t ids) (hbodies : ∀ entry ∈ bodies, P entry.2)
    (hrefer : ∀ seen, (∀ entry ∈ seen, P entry.2) → ∀ name id, refer seen name = some id → P id)
    (hseen : ∀ entry ∈ seen, P entry.2) : ∀ entry ∈ ids, P entry.2 := by
  induction h with
  | nil => exact fun _ h => absurd h List.not_mem_nil
  | @cons seen ids name body rest id first others ih =>
      have hbody {key : String} (hkey : bodies.get? key = some id) : P id :=
        hbodies _ (Table.mem_of_get?_eq_some hkey)
      have hfirst : P id := by
        unfold idOf at first
        split at first
        · rcases Option.or_eq_some_iff.1 first with hkey | ⟨-, htarget⟩
          · exact hbody hkey
          · exact hrefer seen hseen _ id htarget
        · exact hbody first
      have hothers := ih (List.forall_mem_append.2 ⟨hseen, List.forall_mem_singleton.2 hfirst⟩)
      exact List.forall_mem_cons.2 ⟨hfirst, hothers⟩

/-- **The names of a document go to instances that have a name or were taken for one.** -/
theorem nameable_of_assigned (hl : l.Sound) {ids : Table InstanceId}
    (hids : Assigned (l.bodyIds d) (l.readyFor d).seeing [] d.schemas ids) :
    ∀ entry ∈ ids, l.Nameable d entry.2 := by
  refine hids.forall_mem (fun _ h => nameable_of_mem_bodyIds h) (fun seen hseen name id hid => ?_)
    fun _ h => absurd h List.not_mem_nil
  rw [seeing_readyFor hl, Option.or_eq_some_iff, Option.or_eq_some_iff] at hid
  rcases hid with hentry | ⟨-, hstaged | ⟨-, hinstance⟩⟩
  · exact nameable_of_mem_entries hl (Table.mem_of_get?_eq_some hentry)
  · exact hseen _ (Table.mem_of_get?_eq_some hstaged)
  · exact nameable_of_mem_instancesWith hl (Table.mem_of_get?_eq_some hinstance)

/-- The names of the loader that is left stand for no other instances. -/
theorem nameable_loaded (hl : l.Sound) {ids : Table InstanceId} {r : Registry}
    (hids : Assigned (l.bodyIds d) (l.readyFor d).seeing [] d.schemas ids) {name : String}
    {id : InstanceId} (h : (name, id) ∈ (l.loaded d ids r).registry.entries ∨
      (name, id) ∈ (l.loaded d ids r).instances) : l.Nameable d id := by
  rcases h with hentry | hinstance
  · rcases List.mem_append.1 hentry with hold | hnew
    · exact nameable_of_mem_entries hl hold
    · exact nameable_of_assigned hl hids _ hnew
  · exact nameable_of_mem_instancesWith hl hinstance

/-! ## One document -/

theorem grows_load (hl : l.Sound) (hd : d.Proper) (h : l.load d = (.ok (), l')) : l.Grows l' := by
  have hload := (load_gains_or_keeps hl hd).2
  rw [h] at hload
  obtain ⟨new, hentries, -⟩ := hload.entries
  obtain ⟨named, hinstances, -⟩ := hload.instances
  obtain ⟨-, -, ids, r, hids, -, rfl⟩ := (load_eq_ok hl hd).1 h
  exact
    { entries := ⟨new, hentries.symm⟩
      instances := ⟨named, hinstances.symm⟩
      arena := hload.arena
      anonymous := fun id hid =>
        { there := Nat.lt_of_lt_of_le hid.there hload.arena.length_le
          noEntry := fun _ hname => (nameable_loaded (r := r) hl hids (.inl hname)).known hid
          noInstance := fun _ hname => (nameable_loaded (r := r) hl hids (.inr hname)).known hid } }

theorem Reachable.grows_feed (h : l.Reachable) (source : Source) : l.Grows (l.feed source).2 := by
  rcases hrun : l.feed source with ⟨outcome, l'⟩
  cases outcome with
  | error e => exact (h.sound.keeps_of_feed hrun).grows
  | ok =>
      obtain ⟨d, hdocument, hload⟩ := exists_document_of_feed hrun
      exact grows_load h.sound (source.proper_of_document hdocument) hload

theorem Reachable.grows_feedAll (h : l.Reachable) (sources : List Source) :
    l.Grows (l.feedAll sources).2 := by
  induction sources generalizing l with
  | nil => exact Grows.refl l
  | cons source rest ih => exact (h.grows_feed source).trans (ih (h.feed source))

/-- The ids that a document hands out while its bodies are read are those of its inline bodies. -/
theorem inlinesOf_loaded {ids : Table InstanceId} {r : Registry} (hd : d.Proper) (hunused : l.Unused d)
    (hids : Assigned (l.bodyIds d) (l.readyFor d).seeing [] d.schemas ids)
    (hr : fill (l.assigned d ids).scope (l.pendingOf d) (l.readyFor d).registry = .ok r) :
    (l.loaded d ids r).InlinesOf d ((l.readyFor d).registry.newIds r) := by
  have hinlines := inlinesAll_of_fill (Nat.le_refl _) (fun _ hp => pendingOf_below hp)
    (nodup_ids_pendingOf l d) hr
  rw [pendingOf, List.map_append] at hinlines
  refine ⟨_, _, placed_waiting _ _ fun entry hentry => ?_, placed_waiting _ _ fun entry hentry => ?_,
    hinlines⟩
  · exact get?_instancesWith hunused hd.instances.names hentry
  · exact get?_loaded_of_mem_bodyIds hunused hids hd.schemas.names hentry

/-- **The inline bodies of a document** have new ids, each another one, and no names. -/
theorem exists_inlines_of_load (hl : l.Sound) (hd : d.Proper) (h : l.load d = (.ok (), l')) :
    ∃ ids, l'.InlinesOf d ids ∧ ids.Nodup ∧ ∀ id ∈ ids, ¬ l.registry.Has id ∧ l'.Anonymous id := by
  obtain ⟨-, hunused, ids, r, hids, hr, rfl⟩ := (load_eq_ok hl hd).1 h
  refine ⟨_, inlinesOf_loaded hd hunused hids hr, Registry.nodup_newIds _ _, fun id hid => ?_⟩
  obtain ⟨hnew, hhas⟩ := Registry.mem_newIds.1 hid
  have htaken : ¬ (l.readyFor d).registry.Has id := Nat.not_lt.2 hnew
  exact ⟨fun hold => htaken (has_readyFor d hold), hhas,
    fun name hname => htaken (nameable_loaded (r := r) hl hids (.inl hname)).taken,
    fun name hname => htaken (nameable_loaded (r := r) hl hids (.inr hname)).taken⟩

/-! ## Any number of documents -/

theorem Placed.mono {refer refer' : String → Option InstanceId} {t : Table Json}
    {bodies : List (InstanceId × Json)} (h : Placed refer t bodies)
    (hkept : ∀ name id, refer name = some id → refer' name = some id) : Placed refer' t bodies :=
  h.imp fun _ _ hentry => ⟨hkept _ _ hentry.1, hentry.2⟩

/-- What is loaded later leaves the inline bodies of a document alone. -/
theorem InlinesOf.mono {ids : List InstanceId} (h : l.InlinesOf d ids) (hgrows : l.Grows l') :
    l'.InlinesOf d ids := by
  obtain ⟨instances, schemas, hinstances, hschemas, hids⟩ := h
  refine ⟨instances, schemas, hinstances.mono fun _ _ => Table.get?_of_prefix hgrows.instances,
    hschemas.mono fun _ _ => Table.get?_of_prefix hgrows.entries,
    hids.mono fun _ _ => hgrows.instance?_eq_some⟩

/-- The ids of the inline bodies in a source that the loader has taken. -/
def InlinesIn (l : Loader) (source : Source) (ids : List InstanceId) : Prop :=
  ∃ d, source.document = .ok d ∧ l.InlinesOf d ids

theorem feedAll_append (l : Loader) (sources later : List Source) :
    (l.feedAll (sources ++ later)).2 = ((l.feedAll sources).2.feedAll later).2 := by
  induction sources generalizing l with
  | nil => rfl
  | cons source rest ih => exact ih (l.feed source).2

/-- The sources that are taken one after the other have inline bodies with new ids and without names. -/
theorem Reachable.exists_inlines (h : l.Reachable) (sources : List Source) :
    ∃ idss, List.Forall₂ (l.feedAll sources).2.InlinesIn (l.accepted sources) idss ∧
      idss.flatten.Nodup ∧
      ∀ id ∈ idss.flatten, ¬ l.registry.Has id ∧ (l.feedAll sources).2.Anonymous id := by
  induction sources generalizing l with
  | nil => exact ⟨[], .nil, List.nodup_nil, fun _ h => absurd h List.not_mem_nil⟩
  | cons source rest ih =>
      have hnext := h.feed source
      have hgrows := h.grows_feed source
      obtain ⟨idss, hidss, hdistinct, hnew⟩ := ih hnext
      rcases hrun : l.feed source with ⟨outcome, l'⟩
      rw [hrun] at hnext hgrows hidss hnew
      simp only [Loader.feedAll, accepted, hrun]
      have hlater : ∀ id ∈ idss.flatten, ¬ l.registry.Has id ∧ (l'.feedAll rest).2.Anonymous id :=
        fun id hid => ⟨fun hold => (hnew id hid).1 (hgrows.has hold), (hnew id hid).2⟩
      cases outcome with
      | error e => exact ⟨idss, hidss, hdistinct, hlater⟩
      | ok =>
          obtain ⟨d, hdocument, hload⟩ := exists_document_of_feed hrun
          obtain ⟨ids, hids, hnodup, hfresh⟩ :=
            exists_inlines_of_load h.sound (source.proper_of_document hdocument) hload
          have hrest := hnext.grows_feedAll rest
          refine ⟨ids :: idss, .cons ⟨d, hdocument, hids.mono hrest⟩ hidss, ?_, ?_⟩
          · -- the ids of the first document are there when the others are loaded
            refine List.nodup_append.2 ⟨hnodup, hdistinct, fun id hid id' hid' heq => ?_⟩
            exact (hnew id' hid').1 (heq ▸ (hfresh id hid).2.there)
          · refine List.forall_mem_append.2 ⟨fun id hid => ?_, hlater⟩
            exact ⟨(hfresh id hid).1, hrest.anonymous id (hfresh id hid).2⟩

/-- **Inline bodies are fresh and stay anonymous.** When sources are fed to a loader, every inline body in
    the documents that it takes, wherever it stands, has an id of its own. Whatever is fed to the loader
    afterwards, each of these instances is still there as it was, it is no entry of the registry and no
    named instance, and a candidate that points to it is never a reference, under any options. -/
theorem exists_inline_ids (options : Options) (sources : List Source) :
    ∃ idss : List (List InstanceId), idss.flatten.Nodup ∧ ∀ later,
      let last := (({ options } : Loader).feedAll (sources ++ later)).2
      List.Forall₂ last.InlinesIn (({ options } : Loader).accepted sources) idss ∧
        ∀ id ∈ idss.flatten, last.Anonymous id ∧
          ∀ (o : Options) (next : Resolver.Level) (d : Definition) (path name : String),
            Resolver.candidateType ⟨last.registry, o⟩ next d path (.nested id)
              ≠ .ok (.reference name) := by
  have hstart := Reachable.start options
  obtain ⟨idss, hidss, hdistinct, hfresh⟩ := hstart.exists_inlines sources
  refine ⟨idss, hdistinct, fun later => ?_⟩
  dsimp only
  have hgrows := (hstart.feedAll sources).grows_feedAll later
  rw [← feedAll_append] at hgrows
  refine ⟨hidss.imp fun source ids ⟨d, hdocument, hids⟩ => ⟨d, hdocument, hids.mono hgrows⟩,
    fun id hid => ?_⟩
  have hanonymous := hgrows.anonymous id (hfresh id hid).2
  exact ⟨hanonymous, fun o next _ path name =>
    Resolver.instanceType_ne_reference hanonymous.noEntry next path name⟩

/-- A body that stands inline. -/
def inlineText : Json := .object [(Body.schemaKey, .object [("n", .text "String")])]

/-- An alternation of two inline bodies and a schema, all of the same shape. -/
def lookalikesSource : Source :=
  .value
    (.object
      [("instances", .object []),
       ("schemas", .object
         [("P", .object [("n", .text "String")]),
          ("A", .object [("x", .list [inlineText, inlineText, aliasOf "P"])])])])
    (by simp [inlineText, aliasOf, Table.names])

/-- They are three instances, and only one of them has a name. -/
example :
    let l := (feed { options := {} } lookalikesSource).2
    l.registry.entries = [("P", ⟨0⟩), ("A", ⟨1⟩)] ∧
      (l.registry.instance? ⟨1⟩).map Instance.ids = some [⟨2⟩, ⟨3⟩, ⟨0⟩] := by
  decide +kernel

end Loader

end SchemaTyping
