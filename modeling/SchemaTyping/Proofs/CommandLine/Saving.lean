import SchemaTyping.Proofs.CommandLine.Reading
import SchemaTyping.Proofs.Document.Steps
import SchemaTyping.Proofs.Files.Tree

set_option autoImplicit false

/-! # What a run changes

The parts of a run on a file tree fall into two kinds. Those that read leave the world as it is
(`reading_leaves_eq`). The one that saves a text either puts it into a single file or changes no file
(`CommandLine.savedOrKept_save`); all it does on the way is to create directories. -/

namespace SchemaTyping

/-! ## What a step leaves behind -/

/-- The world that a step leaves stands in this relation to the one it finds. -/
def Leaves (R : World → World → Prop) ⦃α : Type⦄ (x : StateM World α) : Prop := ∀ w, R w (x.run w).2

theorem Leaves.composes {R : World → World → Prop} (hrefl : ∀ w, R w w)
    (htrans : ∀ {w₁ w₂ w₃}, R w₁ w₂ → R w₂ w₃ → R w₁ w₃) : Composes (Leaves R) where
  pure _ w := hrefl w
  bind {α β x f} hx hf w := by
    rw [StateT.run_bind]
    exact htrans (hx w) (hf _ _)

/-- Reading leaves the world as it is. -/
theorem reading_leaves_eq : HoldsOfReading (Leaves Eq) where
  toComposes := Leaves.composes (fun _ => rfl) Eq.trans
  readText _ _ := rfl
  isDirectory? path w := by
    simp only [isDirectory?, StateT.run_bind, StateT.run_get, pure_bind]
    cases w.tree.walk path <;> rfl
  entries _ _ := rfl

/-! ## Creating and writing -/

/-- A directory is created or nothing changes. -/
theorem World.run_createDirectory (path : String) (w : World) :
    (createDirectory path : StateM World _).run w =
      match w.tree.makeDirectory path with
      | .ok tree => (.ok (), { w with tree })
      | .error e => (.error e, w) := rfl

/-- A file is written or nothing changes. -/
theorem World.run_writeText (path text : String) (w : World) :
    (writeText path text : StateM World _).run w =
      match w.tree.write path text with
      | .ok tree => (.ok (), { w with tree })
      | .error e => (.error e, w) := rfl

/-- Every file is as it was, and nothing is written on the streams. There may be new directories. -/
structure FilesKept (w w' : World) : Prop where
  file? : ∀ l, w'.tree.file? l = w.tree.file? l
  output : w'.output = w.output
  messages : w'.messages = w.messages

theorem FilesKept.refl (w : World) : FilesKept w w := ⟨fun _ => rfl, rfl, rfl⟩

theorem FilesKept.trans {w₁ w₂ w₃ : World} (h : FilesKept w₁ w₂) (h' : FilesKept w₂ w₃) :
    FilesKept w₁ w₃ where
  file? l := (h'.file? l).trans (h.file? l)
  output := h'.output.trans h.output
  messages := h'.messages.trans h.messages

theorem filesKept_composes : Composes (Leaves FilesKept) := Leaves.composes FilesKept.refl FilesKept.trans

theorem createDirectory_filesKept (path : String) :
    Leaves FilesKept (createDirectory path : StateM World _) := by
  intro w
  rw [World.run_createDirectory]
  cases hmake : w.tree.makeDirectory path with
  | error e => exact .refl w
  | ok tree => exact ⟨FileTree.file?_makeDirectory hmake, rfl, rfl⟩

theorem isDirectory?_filesKept (path : String) :
    Leaves FilesKept (isDirectory? path : StateM World _) := by
  intro w
  rw [← reading_leaves_eq.isDirectory? path w]
  exact .refl w

namespace CommandLine

theorem settled_filesKept (path : String) (outcome : Except FileError Unit) :
    Leaves FilesKept (createDirectories.settled path outcome) := by
  unfold createDirectories.settled
  cases outcome with
  | ok => exact filesKept_composes.pure _
  | error e =>
      refine filesKept_composes.bind (isDirectory?_filesKept path) fun there => ?_
      split
      · exact filesKept_composes.pure _
      · exact filesKept_composes.pure _

theorem createDirectories_filesKept (fuel : Nat) (path : String) :
    Leaves FilesKept (createDirectories fuel path) := by
  induction fuel generalizing path with
  | zero => exact filesKept_composes.pure _
  | succ fuel ih =>
      unfold createDirectories
      split
      · exact filesKept_composes.pure _
      refine filesKept_composes.bind (createDirectory_filesKept path) fun created => ?_
      split
      · exact filesKept_composes.pure _
      · split
        · exact filesKept_composes.pure _
        · refine filesKept_composes.bind (ih _) fun above => ?_
          split
          · exact filesKept_composes.pure _
          · exact filesKept_composes.bind (createDirectory_filesKept path) fun _ =>
              settled_filesKept path _
      · exact settled_filesKept path _

/-! ## Saving -/

/-- Either the text is in the file and every other file is as it was, or the text could not be put there and
    every file is as it was. -/
def SavedOrKept (file text : String) (w : World) : Except RunError Unit × World → Prop
  | (.ok (), w') =>
    w'.output = w.output ∧ w'.messages = w.messages ++ ("File saved: " ++ file ++ "\n") ∧
      ∃ l, w'.tree.walk file = .ok (.inside l) ∧ w'.tree.read file = .ok text ∧
        ∀ l', w'.tree.file? l' = if l' = l then some (.text text) else w.tree.file? l'
  | (.error e, w') =>
    ((∃ directory cause, e = .notCreated directory cause) ∨ ∃ cause, e = .notWritten file cause) ∧
      FilesKept w w'

theorem savedOrKept_write (file text : String) {w w' : World} (h : FilesKept w w') :
    SavedOrKept file text w
      (exec (do
        match ← (writeText file text : StateM World _) with
        | .ok () => (report ("File saved: " ++ file ++ "\n") : StateM World Unit)
        | .error e => throw (.notWritten file e) : Run (StateM World) Unit) w') := by
  rw [exec_bind, exec_lift, World.run_writeText]
  cases hwrite : w'.tree.write file text with
  | error e => exact ⟨Or.inr ⟨e, rfl⟩, h⟩
  | ok tree =>
      obtain ⟨l, hwalk, hread, hfiles⟩ := FileTree.of_write_eq_ok hwrite
      refine ⟨h.output, congrArg (· ++ _) h.messages, l, hwalk, hread, fun l' => ?_⟩
      rw [hfiles l', h.file? l']

/-- **Saving a text touches one file at most.** -/
theorem savedOrKept_save (file text : String) (w : World) :
    SavedOrKept file text w (exec (save file text) w) := by
  unfold save
  cases Files.parent? file with
  | none => exact savedOrKept_write file text (.refl w)
  | some directory =>
      have hkept := createDirectories_filesKept (directory.length + 1) directory w
      dsimp only
      rw [exec_bind, exec_lift]
      rcases hcreate : (createDirectories (m := StateM World) (directory.length + 1) directory).run w
        with ⟨created, w'⟩
      rw [hcreate] at hkept
      cases created with
      | error e => exact ⟨Or.inl ⟨directory, e, rfl⟩, hkept⟩
      | ok => exact savedOrKept_write file text hkept

end CommandLine

end SchemaTyping
