import SchemaTyping.CommandLine.Run
import SchemaTyping.Proofs.Document.Lockstep
import SchemaTyping.Proofs.Resolution.Comparison

set_option autoImplicit false

/-! # The banner has no part in loading

Options that differ in the banner only find the same documents, make the same registry of them and generate
the same declarations. On any host, loading with either is the same program
(`CommandLine.registry_withHeader`). -/

namespace SchemaTyping

/-- The options, with the banner or without it. -/
def Options.withHeader (o : Options) (header : Bool) : Options := { o with header }

/-- A generation, with the banner or without it. -/
def Generated.withHeader (g : Generated) (header : Bool) : Generated := { g with header }

/-! ## Generating -/

theorem generate_withHeader (r : Registry) (o : Options) (header : Bool) :
    generate r (o.withHeader header) = (generate r o).map (·.withHeader header) := by
  have hcomparable : Resolver.Comparable (fun _ => False) ⟨r, o⟩ ⟨r, o.withHeader header⟩ :=
    ⟨rfl, rfl, fun _ => rfl, fun _ _ => .refl _⟩
  have hdeclare := hcomparable.declare (fun _ => not_false) rfl rfl
  simp only [generate, hdeclare, Outcome.map_bind_pure]
  rfl

/-! ## Loading -/

namespace Loader

/-- Loading the same documents with and without the banner. -/
def Correspondence.ofHeader : Correspondence where
  ids := id
  bodies := id
  contents := id
  options o p := ∃ header, p = o.withHeader header
  registries := Eq
  refusals := Eq
  overrideKeyName := by
    rintro o _ ⟨header, rfl⟩
    rfl
  validate := by
    rintro o _ ⟨header, rfl⟩
    rfl
  aliasTarget? := aliasTarget?_id
  entries := by
    rintro r _ rfl
    simp
  withEntries := by
    rintro r _ rfl entries
    simp
  has_iff := by
    rintro r _ rfl id
    rfl
  reserve := by
    rintro r _ rfl
    exact ⟨rfl, rfl⟩
  set := by
    rintro r _ id rfl - i
    rfl
  read := by
    intro o p h scope hscope place j
    have hsame : scope.rename id = scope := by simp [Scope.rename]
    rw [hsame]
    exact corresponds_self _
  refused _ := rfl
  unknown := unknown_id

variable {l m : Loader}

theorem related_withHeader (o : Options) (header : Bool) :
    Related .ofHeader { options := o } { options := o.withHeader header } where
  options := ⟨header, rfl⟩
  registry := rfl
  instances := rfl
  stagedSchemas := rfl
  stagedInstances := rfl

theorem Related.load_ofHeader (h : Related .ofHeader l m) (d : Document) :
    RunCorresponds Eq (Related .ofHeader) id (l.load d) (m.load d) := by
  have hsame : d.mapBodies (Correspondence.ofHeader).bodies = d := d.mapBodies_id
  have hload := h.load d
  rwa [hsame] at hload

theorem Related.loadText_ofHeader (h : Related .ofHeader l m) (text : String) :
    RunCorresponds Eq (Related .ofHeader) id (l.loadText text) (m.loadText text) := by
  unfold loadText
  split
  · exact h.load_ofHeader _
  · exact runCorresponds_error rfl

theorem Related.loadJson_ofHeader (h : Related .ofHeader l m) (j : Json) :
    RunCorresponds Eq (Related .ofHeader) id (l.loadJson j) (m.loadJson j) := by
  unfold loadJson
  split
  · exact h.load_ofHeader _
  · exact runCorresponds_error rfl

end Loader

/-! ## Loading files -/

namespace CommandLine

open Loader

/-- What a command makes of the loading of a document. -/
def loaded (file : String) : Except DocumentError Unit × Loader → Except RunError Loader
  | (.ok (), l) => .ok l
  | (.error e, _) => .error (.document file e)

theorem loadText_eq (file : String) (pointer : Option String) (l : Loader) (text : String) :
    loadText file pointer l text =
      match pointer with
      | none => loaded file (l.loadText text)
      | some pointer =>
        match Json.ofText text with
        | .error p => .error (.notJson file p)
        | .ok j =>
          match Document.select pointer j with
          | .error e => .error (.document file e)
          | .ok part => loaded file (l.loadJson part) := rfl

/-- Both loaders or the one reason why there is none. -/
abbrev LoadAlike : Except RunError Loader → Except RunError Loader → Prop :=
  Outcome.Corresponds Eq (Related .ofHeader)

theorem loadAlike_loaded {run run' : Except DocumentError Unit × Loader} (file : String)
    (h : RunCorresponds Eq (Related .ofHeader) id run run') :
    LoadAlike (loaded file run) (loaded file run') := by
  obtain ⟨outcome, l⟩ := run
  obtain ⟨outcome', m⟩ := run'
  cases outcome <;> cases outcome'
  · exact congrArg _ h
  · exact h.elim
  · exact h.elim
  · exact h.2

theorem loadAlike_loadText {l m : Loader} (h : Related .ofHeader l m) (file : String)
    (pointer : Option String) (text : String) :
    LoadAlike (loadText file pointer l text) (loadText file pointer m text) := by
  rw [loadText_eq, loadText_eq]
  cases pointer with
  | none => exact loadAlike_loaded file (h.loadText_ofHeader text)
  | some pointer =>
      dsimp only
      split
      · rfl
      split
      · rfl
      · exact loadAlike_loaded file (h.loadJson_ofHeader _)

section

variable {n : Type → Type} [Monad n] [LawfulMonad n] [Host n]

/-- Loading files with and without the banner is the same program, as far as the registry is concerned. -/
theorem loadFiles_alike (pointer : Option String) (files : List String) {l m : Loader}
    (h : Related .ofHeader l m) :
    (do let l ← files.foldlM (loadFile (m := n) pointer) l; return l.registry)
      = do let m ← files.foldlM (loadFile (m := n) pointer) m; return m.registry := by
  induction files generalizing l m with
  | nil => simpa using congrArg pure h.registry
  | cons file rest ih =>
      simp only [List.foldlM_cons, loadFile, bind_assoc]
      congr
      funext text
      cases text with
      | error e => rfl
      | ok text =>
          have hload := loadAlike_loadText h file pointer text
          dsimp only
          cases hl : loadText file pointer l text <;> cases hm : loadText file pointer m text <;>
            rw [hl, hm] at hload
          · obtain rfl : _ = _ := hload
            rfl
          · exact hload.elim
          · exact hload.elim
          · have hstart (l : Loader) : (liftM (Except.ok (ε := RunError) l) : Run n Loader) = pure l := rfl
            rw [hstart, hstart, pure_bind, pure_bind]
            exact ih hload

theorem registry_withHeader (settings : Settings) (o : Options) (header : Bool) :
    registry (m := n) settings (o.withHeader header) = registry settings o := by
  unfold registry
  congr
  funext files
  exact (loadFiles_alike settings.jsonPointer files.flatten (related_withHeader o header)).symm

end

end CommandLine

end SchemaTyping
