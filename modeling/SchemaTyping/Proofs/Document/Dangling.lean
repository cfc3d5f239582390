import SchemaTyping.Proofs.Document.Loading
import SchemaTyping.Proofs.Generation.Missing

set_option autoImplicit false

/-! # A loader never holds a dangling id

The ids that a loader holds are those of its names, of its named instances, of what is staged, and of the
rules of its instances. All of them are ids of instances, between two documents and in the middle of one
(`Loader.NoDangling`), since an id enters a table or a rule only after it was handed out and no instance
is ever taken away. Refused documents leave instances behind, and those point to what is there as well.

A registry that comes out of a loader is closed, so nothing that is generated from it reports a missing
instance (`Loader.Reachable.never_dangles`). -/

namespace SchemaTyping.Loader

/-- Every id that the loader holds is that of an instance, and every rule has a candidate. -/
structure NoDangling (l : Loader) : Prop where
  entries : ∀ entry ∈ l.registry.entries, l.registry.Has entry.2
  instances : ∀ entry ∈ l.instances, l.registry.Has entry.2
  stagedSchemas : ∀ entry ∈ l.stagedSchemas, l.registry.Has entry.2
  stagedInstances : ∀ entry ∈ l.stagedInstances, l.registry.Has entry.2
  rules : ∀ d, Instance.schema d ∈ l.registry.instances → ∀ entry ∈ d.rules,
    entry.2.candidates ≠ [] ∧ ∀ id, .nested id ∈ entry.2.candidates → l.registry.Has id

/-- The loaders that a document goes through: after any part of a phase, whether that part was refused or
    not; after any type specification that is read in one of them, which is all that reading a body does
    to a loader; and after any part of the names has been given. -/
inductive Midway (l₀ : Loader) (d : Document) : Loader → Prop where
  | instances {t rest : Table Json} (part : d.instances = t ++ rest) :
      Midway l₀ d (exec (stageInstances t) l₀).2
  | bodies {pending : List Pending} {l₁ : Loader} {t rest : Table Json}
      (first : exec (stageInstances d.instances) l₀ = (.ok pending, l₁))
      (part : d.schemas = t ++ rest) : Midway l₀ d (exec (reserveBodies t) l₁).2
  | schemas {pending : List Pending} {l₁ l₂ : Loader} {bodies : Table InstanceId}
      {t rest : Table Json} (first : exec (stageInstances d.instances) l₀ = (.ok pending, l₁))
      (second : exec (reserveBodies d.schemas) l₁ = (.ok bodies, l₂))
      (part : d.schemas = t ++ rest) : Midway l₀ d (exec (stageSchemas bodies t) l₂).2
  | places {pending pending' read rest : List Pending} {l₁ l₂ l₃ : Loader}
      {bodies : Table InstanceId}
      (first : exec (stageInstances d.instances) l₀ = (.ok pending, l₁))
      (second : exec (reserveBodies d.schemas) l₁ = (.ok bodies, l₂))
      (third : exec (stageSchemas bodies d.schemas) l₂ = (.ok pending', l₃))
      (part : pending ++ pending' = read ++ rest) : Midway l₀ d (exec (readBodies read) l₃).2
  | reading {l : Loader} (h : Midway l₀ d l) (place : String) (j : Json) :
      Midway l₀ d { l with
        registry := (exec (Body.readCandidates l.scope place j) l.registry).2 }
  | names {l : Loader} {t rest : Table InstanceId} (staged : exec (stage d) l₀ = (.ok (), l))
      (part : l.stagedSchemas = t ++ rest) : Midway l₀ d (exec (bindAll t) l.merged).2

variable {l₀ l : Loader} {d : Document}

/-! ## One step -/

theorem NoDangling.closed (h : l.NoDangling) : l.registry.Closed where
  entries := h.entries
  instances := by
    intro i hi id hid
    cases i with
    | values values => exact absurd hid List.not_mem_nil
    | schema d =>
        obtain ⟨entry, hentry, hmem⟩ := List.mem_flatMap.1 hid
        exact (h.rules d hi entry hentry).2 id (Rule.mem_ids.1 hmem)

/-- What is left to say when a registry is closed: the tables of the loader are inside. -/
theorem noDangling_of_closed (hclosed : l.registry.Closed)
    (hinstances : ∀ entry ∈ l.instances, l.registry.Has entry.2)
    (hstagedSchemas : ∀ entry ∈ l.stagedSchemas, l.registry.Has entry.2)
    (hstagedInstances : ∀ entry ∈ l.stagedInstances, l.registry.Has entry.2) : l.NoDangling where
  entries := hclosed.entries
  instances := hinstances
  stagedSchemas := hstagedSchemas
  stagedInstances := hstagedInstances
  rules := by
    intro d hd entry hentry
    refine ⟨entry.2.candidates_ne_nil, fun id hid => hclosed.instances _ hd id ?_⟩
    exact List.mem_flatMap.2 ⟨entry, hentry, Rule.mem_ids.2 hid⟩

theorem Stages.noDangling (h : l₀.Stages l) (h₀ : l₀.Sound) : l.NoDangling := by
  refine noDangling_of_closed h.closed (fun entry hentry => ?_) h.stagedSchemas h.stagedInstances
  rw [h.instances] at hentry
  exact h.registry.has (h₀.instances entry hentry)

/-- Names refer to instances that are there. -/
theorem NoDangling.scopeBelow (h : l.NoDangling) :
    Body.ScopeBelow l.scope l.registry.instances.length := by
  intro name id hid
  have htarget : l.target? name = some id := hid
  rw [target?, Option.or_eq_some_iff, Option.or_eq_some_iff, Option.or_eq_some_iff] at htarget
  rcases htarget with hid | ⟨-, hid | ⟨-, hid | ⟨-, hid⟩⟩⟩
  · exact h.entries _ (Table.mem_of_get?_eq_some hid)
  · exact h.stagedSchemas _ (Table.mem_of_get?_eq_some hid)
  · exact h.instances _ (Table.mem_of_get?_eq_some hid)
  · exact h.stagedInstances _ (Table.mem_of_get?_eq_some hid)

theorem NoDangling.withRegistry (h : l.NoDangling) {r : Registry} (hext : l.registry.Extends r)
    (hr : r.Closed) : NoDangling { l with registry := r } :=
  noDangling_of_closed hr (fun entry hentry => hext.has (h.instances entry hentry))
    (fun entry hentry => hext.has (h.stagedSchemas entry hentry))
    fun entry hentry => hext.has (h.stagedInstances entry hentry)

theorem NoDangling.reading (h : l.NoDangling) (place : String) (j : Json) :
    NoDangling { l with registry := (exec (Body.readCandidates l.scope place j) l.registry).2 } := by
  obtain ⟨hext, hclosed, -⟩ :=
    Body.readCandidates_keeps place j h.scopeBelow l.registry h.closed (Nat.le_refl _)
  exact h.withRegistry hext hclosed

/-- A name is only ever given to an instance that is there. -/
theorem NoDangling.bindAll (h : l.NoDangling) (t : Table InstanceId) :
    (exec (Loader.bindAll t) l).2.NoDangling := by
  induction t generalizing l with
  | nil => exact h
  | cons entry rest ih =>
      obtain ⟨name, id⟩ := entry
      rw [exec_bindAll_cons]
      cases hbind : l.registry.bind name id with
      | error e => exact h
      | ok registry =>
          obtain ⟨hid, rfl⟩ := Registry.of_bind_eq_ok hbind
          exact ih (noDangling_of_closed (h.closed.named name hid) h.instances h.stagedSchemas
            h.stagedInstances)

theorem Stages.noDangling_merged (h : l₀.Stages l) (h₀ : l₀.Sound) : l.merged.NoDangling := by
  have hinside := h.noDangling h₀
  refine noDangling_of_closed h.closed ?_ (fun _ h => absurd h List.not_mem_nil)
    fun _ h => absurd h List.not_mem_nil
  exact Table.forall_mem_foldl_insert hinside.stagedInstances hinside.instances

/-! ## A whole document -/

/-- When every schema has its id, every body waits for a place of its own. -/
theorem awaits_of_runs {pending pending' : List Pending} {l₁ l₂ l₃ : Loader}
    {bodies : Table InstanceId} (h₀ : l₀.Sound) (hd : d.Proper)
    (first : exec (stageInstances d.instances) l₀ = (.ok pending, l₁))
    (second : exec (reserveBodies d.schemas) l₁ = (.ok bodies, l₂))
    (third : exec (stageSchemas bodies d.schemas) l₂ = (.ok pending', l₃)) :
    l₀.Stages l₃ ∧ l₀.Awaits (pending ++ pending') l₃ := by
  obtain ⟨hnewInstances, rfl, rfl⟩ := (exec_stageInstances_document h₀ hd.instances.names).1 first
  obtain ⟨hnewSchemas, rfl, rfl⟩ := exec_reserveBodies_document.1 second
  obtain ⟨rfl, ids, hids, rfl⟩ := (exec_stageSchemas_document h₀ hd.schemas.names).1 third
  have hunused : l₀.Unused d := ⟨hnewSchemas, hnewInstances⟩
  exact ⟨stages_assigned h₀ hd.schemas.names hd.instances.names hunused hids, awaits_pendingOf ids⟩

theorem Midway.noDangling (h : l₀.Midway d l) (h₀ : l₀.Sound) (hd : d.Proper) : l.NoDangling := by
  induction h with
  | instances part => exact (stageInstances_phase _ h₀.stages).1.noDangling h₀
  | bodies first part =>
      obtain ⟨hstages, -⟩ := (stageInstances_phase d.instances h₀.stages).of_eq_ok first
      exact (reserveBodies_phase _ hstages).1.noDangling h₀
  | schemas first second part =>
      obtain ⟨hstages₁, -⟩ := (stageInstances_phase d.instances h₀.stages).of_eq_ok first
      obtain ⟨hstages₂, -, hbodies⟩ := (reserveBodies_phase d.schemas hstages₁).of_eq_ok second
      exact (stageSchemas_phase _ hstages₂ h₀ hbodies).1.noDangling h₀
  | places first second third part =>
      obtain ⟨hstages, hawaits⟩ := awaits_of_runs h₀ hd first second third
      refine (readBodies_phase _ hstages h₀ fun p hp => hawaits p ?_).1.noDangling h₀
      rw [part]
      exact List.mem_append_left _ hp
  | reading _ place j ih => exact ih.reading place j
  | names staged part =>
      obtain ⟨hstages, -⟩ := (stage_phase h₀ hd.schemas.names hd.instances.names).of_eq_ok staged
      exact (hstages.noDangling_merged h₀).bindAll _

/-! ## Any number of documents -/

/-- **A loader never holds a dangling id**, whatever it was given, between two documents and in the middle
    of one. So for all options no type is refused for an instance that is missing, in a definition of its
    registry or any other that points into it, and no part of a generated text is refused or left out
    for one; a whole declaration is only refused for a value of its holder that is no literal. -/
theorem Reachable.never_dangles (h : l.Reachable) :
    l.NoDangling ∧
      (∀ source d m, Source.document source = .ok d → l.Midway d m → m.NoDangling) ∧
      (∀ d, Instance.schema d ∈ l.registry.instances → d.Inside l.registry) ∧
      ∀ o : Options,
        (∀ d path e, d.Inside l.registry →
          Resolver.resolve ⟨l.registry, o⟩ path d = .error e ∨
            Resolver.resolveField ⟨l.registry, o⟩ path d = .error e → ¬ e.ReportsMissing) ∧
        (∀ e, generate l.registry o = .error e → ¬ e.cause.ReportsMissing ∧
          ∀ name cause, e = .declaration name cause → l.registry.Unlisted name cause) ∧
        ∀ g name key cause, generate l.registry o = .ok g →
          .skippedField name key cause ∈ g.diagnostics → ¬ cause.ReportsMissing := by
  have hclosed := h.sound.closed
  refine ⟨h.sound.stages.noDangling h.sound, fun source d m hdocument hm => ?_,
    fun d hd => hclosed.instances _ hd, fun o => ⟨?_, ?_, ?_⟩⟩
  · exact hm.noDangling h.sound (source.proper_of_document hdocument)
  · intro d path e hinside he
    rcases he with he | he
    · exact Resolver.resolve_not_reportsMissing (r := ⟨l.registry, o⟩) hclosed hinside he
    · exact Resolver.resolveField_not_reportsMissing (r := ⟨l.registry, o⟩) hclosed hinside he
  · exact fun e he => generate_eq_error_of_closed hclosed he
  · exact fun g name key cause hg hskipped => not_reportsMissing_of_skipped hclosed hg hskipped

/-- A document that is refused after an inline definition of it was added for good. -/
def orphaningSource : Source :=
  .value
    (.object
      [("schemas", .object
        [("A", .object
          [("x", .object [(Body.schemaKey, .object [("a", .object [(Body.refKey, .text "A")])])]),
           ("y", .text "Text")])])])
    (by simp [Table.names, Body.schemaKey, Body.refKey])

/-- The inline definition that is left behind points to the place that was taken for `A`. -/
theorem orphan_points_inside :
    let l := (feed { options := {} } orphaningSource).2
    (feed { options := {} } orphaningSource).1.isOk = false ∧ l.registry.instances.length = 2 ∧
      l.registry.entries = [] ∧ l.NoDangling := by
  have hreachable := (Reachable.start {}).feed orphaningSource
  exact ⟨by decide +kernel, by decide +kernel, by decide +kernel, hreachable.never_dangles.1⟩

end SchemaTyping.Loader
