import SchemaTyping.Proofs.CommandLine.Banner
import SchemaTyping.Proofs.CommandLine.Saving

set_option autoImplicit false

/-! # `check` and `generate` agree

Both commands find the same options, read the same files and generate the same declarations, up to the banner
(`CommandLine.generated`); only then do their ways part. So `check` tells what `generate` would do, and a run
that fails before something is generated leaves the world as it was
(`CommandLine.check_and_generate_agree`). -/

namespace SchemaTyping.CommandLine

/-- A part of a run that leaves the world as it is. -/
theorem exec_eq_of_leaves_eq {α : Type} {x : Run (StateM World) α} (hx : Leaves Eq x.run) (w : World) :
    exec x w = ((exec x w).1, w) := Prod.ext rfl (hx w).symm

/-! ## What is generated -/

/-- What is generated in a world with these options. -/
def generatedWith (settings : Settings) (w : World) (o : Options) : Except RunError Generated := do
  let r ← (exec (registry settings o) w).1
  (generate r o).mapError .generation

/-- What is generated in a world, unless something is wrong. -/
def generated (settings : Settings) (noHeader : Bool) (w : World) : Except RunError Generated := do
  let o ← (exec (options settings) w).1
  generatedWith settings w (o.withHeader (o.header && !noHeader))

/-- What is reported of a generation that succeeds. -/
def warnings (ds : List Diagnostic) : String :=
  String.join (ds.map fun d => "warning: " ++ d.message ++ "\n")

theorem exec_report (text : String) (w : World) :
    exec (liftM (report text : StateM World Unit) : Run (StateM World) Unit) w
      = (.ok (), { w with messages := w.messages ++ text }) := rfl

theorem exec_warnings (ds : List Diagnostic) (w : World) :
    exec (ds.forM fun d => (report ("warning: " ++ d.message ++ "\n") : StateM World Unit) :
        Run (StateM World) Unit) w
      = (.ok (), { w with messages := w.messages ++ warnings ds }) := by
  induction ds generalizing w with
  | nil => simp [warnings]
  | cons d ds ih =>
      rw [List.forM_eq_forM, List.forM_cons, exec_bind, exec_report]
      dsimp only
      rw [← List.forM_eq_forM, ih]
      simp [warnings, String.append_assoc]

theorem exec_generation (settings : Settings) (o : Options) (w : World) :
    exec (generation settings o) w =
      match generatedWith settings w o with
      | .ok g => (.ok g, { w with messages := w.messages ++ warnings g.diagnostics })
      | .error e => (.error e, w) := by
  unfold generation generatedWith
  rw [exec_bind, exec_eq_of_leaves_eq (reading_leaves_eq.registry settings o) w]
  cases (exec (registry settings o) w).1 with
  | error e => rfl
  | ok r =>
      rw [Outcome.ok_bind]
      dsimp only
      cases generate r o with
      | error e => rfl
      | ok g =>
          dsimp only
          rw [exec_bind, exec_warnings]
          rfl

/-! ## The commands -/

/-- What `check` reports of a generation. -/
def summary (g : Generated) : String :=
  let counts := toString g.declarations.length ++ " declarations, "
    ++ toString g.diagnostics.length ++ " diagnostics"
  "ok: " ++ counts ++ "\n"

/-- A command that generates goes on with what is generated, or ends where it stands. -/
theorem exec_options_generation (settings : Settings) (noHeader : Bool) (w : World)
    (next : Generated → Run (StateM World) Unit) :
    exec (do
        let o ← options settings
        let g ← generation settings (o.withHeader (o.header && !noHeader))
        next g) w =
      match generated settings noHeader w with
      | .ok g => exec (next g) { w with messages := w.messages ++ warnings g.diagnostics }
      | .error e => (.error e, w) := by
  rw [exec_bind, exec_eq_of_leaves_eq (reading_leaves_eq.options settings) w, generated]
  cases (exec (options settings) w).1 with
  | error e => rfl
  | ok o =>
      rw [Outcome.ok_bind]
      dsimp only
      rw [exec_bind, exec_generation]
      cases generatedWith settings w (o.withHeader (o.header && !noHeader)) with
      | error e => rfl
      | ok g => rfl

theorem exec_run_generate (settings : Settings) (out : Option String) (noHeader : Bool) (w : World) :
    exec (run (.generate settings out noHeader)) w =
      match generated settings noHeader w with
      | .ok g =>
        exec (match out with
            | none => (print g.text : StateM World Unit)
            | some file => save file g.text : Run (StateM World) Unit)
          { w with messages := w.messages ++ warnings g.diagnostics }
      | .error e => (.error e, w) :=
  exec_options_generation settings noHeader w fun g => match out with
    | none => (print g.text : StateM World Unit)
    | some file => save file g.text

theorem exec_run_check (settings : Settings) (w : World) :
    exec (run (.check settings)) w =
      match generated settings false w with
      | .ok g => (.ok (), { w with messages := w.messages ++ warnings g.diagnostics ++ summary g })
      | .error e => (.error e, w) := by
  have hsame (o : Options) : o.withHeader (o.header && !false) = o := by simp [Options.withHeader]
  have hrun := exec_options_generation settings false w fun g => (report (summary g) : StateM World Unit)
  simp only [hsame] at hrun
  exact hrun

theorem generatedWith_withHeader (settings : Settings) (w : World) (o : Options) (header : Bool) :
    generatedWith settings w (o.withHeader header) =
      (generatedWith settings w o).map (·.withHeader header) := by
  unfold generatedWith
  rw [registry_withHeader]
  cases (exec (registry settings o) w).1 with
  | error e => rfl
  | ok r =>
      rw [Outcome.ok_bind, Outcome.ok_bind, generate_withHeader]
      cases generate r o <;> rfl

theorem generated_noHeader (settings : Settings) (noHeader : Bool) (w : World) :
    generated settings noHeader w =
      (generated settings false w).map fun g => g.withHeader (g.header && !noHeader) := by
  unfold generated
  cases (exec (options settings) w).1 with
  | error e => rfl
  | ok o =>
      rw [Outcome.ok_bind, Outcome.ok_bind, generatedWith_withHeader, generatedWith_withHeader]
      cases generatedWith settings w o with
      | error e => rfl
      | ok g => simp [Except.map, Generated.withHeader]

/-- **`check` and `generate` agree.** Either something is wrong: then `check` and `generate`, with a file and
    without one, fail with the same error and leave the world as it was. Or all of them report the same
    warnings; `check` does nothing else but say how much there is, `generate` without a file prints a text, and
    `generate` with a file puts this text there and touches no other file. -/
theorem check_and_generate_agree (settings : Settings) (noHeader : Bool) (file : String) (w : World) :
    (∃ e, generated settings noHeader w = .error e ∧
      exec (run (.check settings)) w = (.error e, w) ∧
      exec (run (.generate settings none noHeader)) w = (.error e, w) ∧
      exec (run (.generate settings (some file) noHeader)) w = (.error e, w)) ∨
    ∃ g warned, generated settings noHeader w = .ok g ∧
      warned = { w with messages := w.messages ++ warnings g.diagnostics } ∧
      exec (run (.check settings)) w
        = (.ok (), { warned with messages := warned.messages ++ summary g }) ∧
      exec (run (.generate settings none noHeader)) w
        = (.ok (), { warned with output := warned.output ++ g.text }) ∧
      SavedOrKept file g.text warned (exec (run (.generate settings (some file) noHeader)) w) := by
  rw [exec_run_check, exec_run_generate, exec_run_generate, generated_noHeader]
  cases generated settings false w with
  | error e => exact Or.inl ⟨e, rfl, rfl, rfl, rfl⟩
  | ok g => exact Or.inr ⟨g.withHeader _, _, rfl, rfl, rfl, rfl, savedOrKept_save file _ _⟩

/-- A tree with one document. -/
def petTree : FileTree where
  files := [(["pets.json"], .text
    "\x7b\"schemas\":\x7b\"Pet\":\x7b\"age\":\x7b\"type\":\"Number\"\x7d\x7d\x7d\x7d")]

/-- The declarations go to a new file in a new directory. -/
example :
    (exec (run (.generate { inputs := ["pets.json"] } (some "out/pets.ts") true))
        { tree := petTree : World }).2.tree.file? ["out", "pets.ts"]
      = some (.text "export interface Pet \x7b\n    age: number;\n\x7d\n") := by
  decide +kernel

end SchemaTyping.CommandLine
