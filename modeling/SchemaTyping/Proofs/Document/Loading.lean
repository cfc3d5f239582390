import SchemaTyping.Proofs.Document.Phases
import SchemaTyping.Proofs.Json.Proper

set_option autoImplicit false

/-! # Loading a document is all or nothing

A `Source` is what a loader can be given, a text or a value, and `Loader.Reachable` are the loaders that
any number of sources lead to. From each of them the next source either gives all of its names or leaves
every name as it was (`Loader.Reachable.feed_gains_or_keeps`). The names of a document are tested before
any of them is given, so giving them cannot stop midway. -/

namespace SchemaTyping

/-! ## Documents that can be read -/

namespace Document

/-- No table of the document has a name twice, and its bodies are values of a text. -/
structure Proper (d : Document) : Prop where
  instances : Json.GoodTable Json.Proper d.instances
  schemas : Json.GoodTable Json.Proper d.schemas

theorem Proper.withField {d : Document} (h : d.Proper) (field : String) {table : Table Json}
    (ht : Json.GoodTable Json.Proper table) : (d.withField field table).Proper := by
  unfold Document.withField
  split
  · exact { h with instances := ht }
  · exact { h with schemas := ht }

theorem proper_empty : Proper {} := ⟨.nil _, .nil _⟩

theorem bodiesReader_yields :
    Json.Reader.Yields (Json.GoodTable Json.Proper) bodiesReader := by
  unfold bodiesReader
  refine Json.Reader.yields_bind' fun cs => ?_
  split
  · exact Json.Reader.yields_bind' fun _ => Json.tableOf_yields (Json.reader_proper _)
  · exact Json.mismatch_yields _

theorem proper_of_ofText {text : String} {d : Document} (h : ofText text = .ok d) : d.Proper := by
  have hreader : Json.Reader.Yields Proper reader :=
    Json.recordReader_yields proper_empty fun s field hs =>
      Json.Reader.yields_bind bodiesReader_yields fun table ht =>
        Json.Reader.yields_pure (hs.withField field ht)
  unfold ofText at h
  split at h
  · next hrun => cases h; exact hreader _ _ _ hrun
  · cases h

theorem proper_of_ofJson {j : Json} {d : Document} (hj : j.Proper) (h : ofJson j = .ok d) :
    d.Proper := by
  refine Json.recordOfValue_eq_ok (fun s field value s' hs hvalue hfield => ?_) proper_empty hj
    (Outcome.mapError_eq_ok.1 h)
  obtain ⟨table, htable, hfield⟩ := Outcome.bind_eq_ok.1 hfield
  cases hfield
  refine hs.withField field ?_
  cases hvalue with
  | object hnames hmembers => cases htable; exact ⟨hnames, hmembers⟩
  | _ => cases htable

end Document

/-! ## Sources -/

/-- What a loader can be given: a text, or a value. -/
inductive Source where
  | text (content : String)
  | value (j : Json) (proper : j.Proper)

/-- The document that a source holds. -/
def Source.document : Source → Except DocumentError Document
  | .text content => Document.ofText content
  | .value j _ => Document.ofJson j

theorem Source.proper_of_document {source : Source} {d : Document} (h : source.document = .ok d) :
    d.Proper := by
  cases source with
  | text content => exact Document.proper_of_ofText h
  | value j proper => exact Document.proper_of_ofJson proper h

/-- The value that a document is. -/
def Document.toJson (d : Document) : Json :=
  .object [("instances", .object d.instances), ("schemas", .object d.schemas)]

/-- A document that can be read is that of some value. -/
theorem Document.Proper.exists_source {d : Document} (h : d.Proper) :
    ∃ source : Source, source.document = .ok d := by
  have hproper : d.toJson.Proper := by
    refine .object (by simp [Table.names]) (List.forall_mem_cons.2 ⟨?_, List.forall_mem_singleton.2 ?_⟩)
    · exact .object h.instances.names h.instances.values
    · exact .object h.schemas.names h.schemas.values
  exact ⟨.value d.toJson hproper, rfl⟩

/-- A text or a value that is no document is not refused by the registry. -/
theorem Source.registry_of_document_eq_error {source : Source} {e : DocumentError}
    (h : source.document = .error e) : ∀ x, e ≠ .registry x := by
  cases source with
  | text content =>
      simp only [Source.document, Document.ofText] at h
      split at h
      · cases h
      · cases h
        exact fun _ => DocumentError.noConfusion
  | value j proper =>
      obtain ⟨p, -, rfl⟩ := Outcome.mapError_eq_error.1 h
      exact fun _ => DocumentError.noConfusion

namespace Loader

/-- Load the document that a source holds. -/
def feed (l : Loader) : Source → Except DocumentError Unit × Loader
  | .text content => l.loadText content
  | .value j _ => l.loadJson j

/-- The loaders that any number of sources lead to. -/
inductive Reachable : Loader → Prop where
  | start (options : Options) : Reachable { options }
  | feed {l : Loader} (h : Reachable l) (source : Source) : Reachable (l.feed source).2

theorem feed_of_document_eq_ok {l : Loader} {source : Source} {d : Document}
    (h : source.document = .ok d) : l.feed source = l.load d := by
  cases source <;> simp only [Source.document] at h <;> simp only [feed, loadText, loadJson, h]

theorem feed_of_document_eq_error {l : Loader} {source : Source} {e : DocumentError}
    (h : source.document = .error e) : l.feed source = (.error e, l) := by
  cases source <;> simp only [Source.document] at h <;> simp only [feed, loadText, loadJson, h]

/-- A source that is taken holds a document. -/
theorem exists_document_of_feed {l l' : Loader} {source : Source} (h : l.feed source = (.ok (), l')) :
    ∃ d, source.document = .ok d ∧ l.load d = (.ok (), l') := by
  cases hdocument : source.document with
  | ok d => exact ⟨d, rfl, (feed_of_document_eq_ok hdocument).symm.trans h⟩
  | error e =>
      rw [feed_of_document_eq_error hdocument] at h
      cases h

/-! ## Loading -/

/-- No name was given and nothing is staged; what was there still is. -/
structure Keeps (l l' : Loader) : Prop where
  options : l'.options = l.options
  entries : l'.registry.entries = l.registry.entries
  instances : l'.instances = l.instances
  stagedSchemas : l'.stagedSchemas = []
  stagedInstances : l'.stagedInstances = []
  arena : l.registry.instances <+: l'.registry.instances

/-- Every name of the document was given, in its order and once, to an instance that is there, and
    nothing is staged; what was there still is. -/
structure Gains (l : Loader) (d : Document) (l' : Loader) : Prop where
  options : l'.options = l.options
  entries : ∃ new : Table InstanceId,
    l'.registry.entries = l.registry.entries ++ new ∧ new.names = d.schemas.names
  once : l'.registry.entries.names.Nodup
  inside : ∀ entry ∈ l'.registry.entries, l'.registry.Has entry.2
  instances : ∃ new : Table InstanceId,
    l'.instances = l.instances ++ new ∧ new.names = d.instances.names
  insideInstances : ∀ entry ∈ l'.instances, l'.registry.Has entry.2
  stagedSchemas : l'.stagedSchemas = []
  stagedInstances : l'.stagedInstances = []
  arena : l.registry.instances <+: l'.registry.instances

variable {l : Loader}

/-- The loader after a document whose staging led to it. -/
def committed (l : Loader) : Loader :=
  { l.cleared with instances := l.instances ++ l.stagedInstances }.withNames l.stagedSchemas

theorem Names.nodup {l' : Loader} {d : Document} (hnames : l.Names d l') (hl : l.Sound)
    (hd : d.Proper) : (l.registry.entries.names ++ l'.stagedSchemas.names).Nodup := by
  rw [hnames.stagedSchemas]
  refine List.nodup_append.2 ⟨hl.entries, hd.schemas.names, fun a ha b hb hab => ?_⟩
  exact hnames.newSchemas b hb (hab ▸ ha)

/-- Loading as its two halves: a document that was staged is loaded. -/
theorem load_eq {d : Document} (h : l.Sound) (hd : d.Proper) (hvalid : l.options.validate = .ok ()) :
    l.load d =
      match exec (stage d) l with
      | (.error e, staged) => (.error e, staged.cleared)
      | (.ok (), staged) => (.ok (), staged.committed) := by
  have hphase := stage_phase h hd.schemas.names hd.instances.names
  rw [load_eq_exec, hvalid]
  rcases hrun : exec (stage d) l with ⟨outcome, staged⟩
  rw [hrun] at hphase
  obtain ⟨hstages, hnames⟩ := hphase
  cases outcome with
  | error e => rfl
  | ok =>
      -- staging tested the names, so all of them go to the end of the two tables
      have hinstances := Table.foldl_insert_eq_append staged.stagedInstances staged.instances
        (by rw [hnames.stagedInstances]; exact hd.instances.names)
        (by rw [hnames.stagedInstances, hstages.instances]; exact hnames.newInstances)
      have hnew : (staged.registry.entries.names ++ staged.stagedSchemas.names).Nodup := by
        rw [hstages.registry.entries]
        exact hnames.nodup h hd
      have hbind := exec_bindAll staged.stagedSchemas staged.merged hstages.stagedSchemas hnew
      refine hbind.trans ?_
      simp only [committed, merged, hinstances, cleared]

theorem Stages.keeps {l' : Loader} (h : l.Stages l') : l.Keeps l'.cleared :=
  ⟨h.options, h.registry.entries, h.instances, rfl, rfl, h.registry.instances⟩

theorem Stages.gains {l' : Loader} {d : Document} (h : l.Stages l') (hl : l.Sound) (hd : d.Proper)
    (hnames : l.Names d l') : l.Gains d l'.committed where
  options := h.options
  entries := ⟨l'.stagedSchemas, by rw [← h.registry.entries]; rfl, hnames.stagedSchemas⟩
  once := by
    have hnodup := hnames.nodup hl hd
    rw [← h.registry.entries, ← Table.names_append] at hnodup
    exact hnodup
  inside := fun entry hentry => by
    rcases List.mem_append.1 hentry with hold | hnew
    · exact h.closed.entries entry hold
    · exact h.stagedSchemas entry hnew
  instances := ⟨l'.stagedInstances, by rw [← h.instances]; rfl, hnames.stagedInstances⟩
  insideInstances := fun entry hentry => by
    rcases List.mem_append.1 hentry with hold | hnew
    · rw [h.instances] at hold
      exact h.registry.has (hl.instances entry hold)
    · exact h.stagedInstances entry hnew
  stagedSchemas := rfl
  stagedInstances := rfl
  arena := h.registry.instances

theorem Stages.sound_cleared {l' : Loader} (h : l.Stages l') (hl : l.Sound) : l'.cleared.Sound where
  closed := h.closed
  entries := h.registry.entries ▸ hl.entries
  instances := fun entry hentry => h.registry.has (hl.instances entry (h.instances ▸ hentry))
  stagedSchemas := rfl
  stagedInstances := rfl

theorem Gains.sound {l' : Loader} {d : Document} (h : l.Gains d l')
    (hinstances : ∀ i ∈ l'.registry.instances, ∀ id ∈ i.ids, l'.registry.Has id) : l'.Sound where
  closed := ⟨h.inside, hinstances⟩
  entries := h.once
  instances := h.insideInstances
  stagedSchemas := h.stagedSchemas
  stagedInstances := h.stagedInstances

theorem Sound.keeps_self (h : l.Sound) : l.Keeps l :=
  ⟨rfl, rfl, rfl, h.stagedSchemas, h.stagedInstances, List.prefix_rfl⟩

theorem registry_of_validate_eq_error {o : Options} {e : DocumentError} (h : o.validate = .error e) :
    ∀ x, e ≠ .registry x := by
  unfold Options.validate at h
  split at h
  · cases h
    exact fun _ => DocumentError.noConfusion
  · split at h
    · cases h
      exact fun _ => DocumentError.noConfusion
    · cases h

/-- What becomes of one document: its names are all given or none is, whichever way staging it went. -/
theorem load_gains_or_keeps {d : Document} (h : l.Sound) (hd : d.Proper) :
    (l.load d).2.Sound ∧
      match l.load d with
      | (.ok (), l') => l.Gains d l'
      | (.error e, l') => l.Keeps l' ∧ ∀ x, e = .registry x → ∃ name, x = .duplicateTypeName name := by
  cases hvalid : l.options.validate with
  | error e =>
      have hload : l.load d = (.error e, l) := by rw [load_eq_exec, hvalid]
      rw [hload]
      exact ⟨h, h.keeps_self, fun x hx => absurd hx (registry_of_validate_eq_error hvalid x)⟩
  | ok =>
      have hphase := stage_phase h hd.schemas.names hd.instances.names
      rw [load_eq h hd hvalid]
      rcases hrun : exec (stage d) l with ⟨outcome, staged⟩
      rw [hrun] at hphase
      obtain ⟨hstages, hout⟩ := hphase
      cases outcome with
      | error e => exact ⟨hstages.sound_cleared h, hstages.keeps, hout⟩
      | ok =>
          have hgains := hstages.gains h hd hout
          exact ⟨hgains.sound hstages.closed.instances, hgains⟩

/-- A source that is refused, as a document or before, leaves every name as it was. -/
theorem Sound.keeps_of_feed (h : l.Sound) {source : Source} {e : DocumentError} {l' : Loader}
    (hfeed : l.feed source = (.error e, l')) : l.Keeps l' := by
  cases hdocument : source.document with
  | error e' =>
      rw [feed_of_document_eq_error hdocument] at hfeed
      cases hfeed
      exact h.keeps_self
  | ok d =>
      rw [feed_of_document_eq_ok hdocument] at hfeed
      have hload := (load_gains_or_keeps h (source.proper_of_document hdocument)).2
      rw [hfeed] at hload
      exact hload.1

/-! ## Any number of documents -/

theorem Reachable.sound (h : l.Reachable) : l.Sound := by
  induction h with
  | start options =>
      exact ⟨⟨fun _ h => absurd h List.not_mem_nil, fun _ h => absurd h List.not_mem_nil⟩,
        List.nodup_nil, fun _ h => absurd h List.not_mem_nil, rfl, rfl⟩
  | @feed l _ source ih =>
      cases hdocument : source.document with
      | ok d =>
          rw [feed_of_document_eq_ok hdocument]
          exact (load_gains_or_keeps ih (source.proper_of_document hdocument)).1
      | error e =>
          rw [feed_of_document_eq_error hdocument]
          exact ih

/-- **Loading is all or nothing.** From every loader that sources lead to, the next source either is a
    document whose names are all given, in its order and once, or leaves every name as it was; either way
    nothing is staged and the instances that were there are untouched. A document that can be staged is
    not refused any more, and the registry refuses nothing but a name that is taken. -/
theorem Reachable.feed_gains_or_keeps (h : l.Reachable) (source : Source) :
    (∀ l', l.feed source = (.ok (), l') → ∃ d, source.document = .ok d ∧ l.Gains d l') ∧
      (∀ e l', l.feed source = (.error e, l') →
        l.Keeps l' ∧ ∀ x, e = .registry x → ∃ name, x = .duplicateTypeName name) ∧
      ∀ d, source.document = .ok d → l.options.validate = .ok () →
        (l.feed source).1 = (exec (stage d) l).1 := by
  cases hdocument : source.document with
  | error e =>
      rw [feed_of_document_eq_error hdocument]
      refine ⟨fun l' h' => ?_, fun e' l' h' => ?_, fun d hd => by cases hd⟩ <;> cases h'
      exact ⟨h.sound.keeps_self,
        fun x hx => absurd hx (Source.registry_of_document_eq_error hdocument x)⟩
  | ok d =>
      have hd := source.proper_of_document hdocument
      have hload := (load_gains_or_keeps h.sound hd).2
      rw [feed_of_document_eq_ok hdocument]
      refine ⟨fun l' h' => ⟨d, rfl, ?_⟩, fun e l' h' => ?_, fun d' hd' hvalid => ?_⟩
      · rw [h'] at hload
        exact hload
      · rw [h'] at hload
        exact hload
      · cases hd'
        rw [load_eq h.sound hd hvalid]
        rcases exec (stage d) l with ⟨outcome, l'⟩
        cases outcome <;> rfl

/-- A document with a definition and a holder of values. -/
def firstSource : Source :=
  .text "[\x7b\"E\":\x7b\"$values\":[null]\x7d\x7d,\x7b\"A\":\x7b\"x\":\x7b\"$ref\":\"E\"\x7d\x7d\x7d]"

/-- A document that is refused after an instance was added for it. -/
def brokenSource : Source :=
  .text "[\x7b\x7d,\x7b\"B\":\x7b\"x\":\x7b\"$schema\":\x7b\x7d\x7d,\"y\":\"Text\"\x7d\x7d]"

/-- After one document, a second one that is refused keeps its names and adds none. -/
theorem broken_source_keeps_first :
    let l := (feed { options := {} } firstSource).2
    l.Reachable ∧ l.registry.entries = [("A", ⟨1⟩)] ∧ (l.feed brokenSource).1.isOk = false ∧
      l.Keeps (l.feed brokenSource).2 := by
  have hreachable := (Reachable.start {}).feed firstSource
  have hrefused : ((feed { options := {} } firstSource).2.feed brokenSource).1.isOk = false := by
    decide +kernel
  refine ⟨hreachable, by decide +kernel, hrefused, ?_⟩
  obtain ⟨-, hkeeps, -⟩ := hreachable.feed_gains_or_keeps brokenSource
  rcases hrun : (feed { options := {} } firstSource).2.feed brokenSource with ⟨outcome, l'⟩
  rw [hrun] at hrefused
  cases outcome with
  | ok => cases hrefused
  | error e => exact (hkeeps e l' hrun).1

end Loader

end SchemaTyping
