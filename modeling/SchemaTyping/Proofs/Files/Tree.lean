import SchemaTyping.Files.Tree
import SchemaTyping.Proofs.Outcome

set_option autoImplicit false

/-! # What changes in a file tree

A tree is changed in two ways. A new directory takes a place where there was nothing, so no file is touched
(`FileTree.file?_makeDirectory`). A text that is written goes to one location, where it can be read back under
the path it was written to, and every other file stays as it was (`FileTree.of_write_eq_ok`). -/

namespace SchemaTyping.FileTree

/-- The content of the file at a location, if there is one. -/
def file? (t : FileTree) (l : Location) : Option Content :=
  match t.node? l with
  | some (.file content) => some content
  | _ => none

variable {t t' : FileTree} {path : String} {l : Location}

/-! ## New directories -/

/-- A directory is created where nothing was. -/
theorem exists_of_makeDirectory (h : t.makeDirectory path = .ok t') :
    ∃ l, t.node? l = none ∧ t' = { t with directories := t.directories ++ [l] } := by
  unfold makeDirectory at h
  obtain ⟨⟨position, name?⟩, -, h⟩ := Outcome.bind_eq_ok.1 h
  cases name? with
  | none => cases h
  | some name =>
      cases position with
      | outside => cases h
      | inside l =>
          dsimp only at h
          split at h
          · cases h
          · next hnew =>
              cases h
              exact ⟨l ++ [name], by simpa using hnew, rfl⟩

theorem file?_makeDirectory (h : t.makeDirectory path = .ok t') (l : Location) : t'.file? l = t.file? l := by
  obtain ⟨new, hnew, rfl⟩ := exists_of_makeDirectory h
  unfold file?
  by_cases hl : l = new
  · subst hl
    rw [hnew]
    simp [node?]
  · simp [node?, hl]

/-! ## Following a path -/

/-- The second tree has the directories of the first, and something wherever the first has. -/
structure Extends (t t' : FileTree) : Prop where
  directory : ∀ l, t.node? l = some .directory → t'.node? l = some .directory
  isSome : ∀ l, (t.node? l).isSome → (t'.node? l).isSome

theorem Extends.isDirectoryAt (h : t.Extends t') {position : Position} (hp : t.isDirectoryAt position) :
    t'.isDirectoryAt position := by
  cases position with
  | outside => rfl
  | inside l =>
      simp only [FileTree.isDirectoryAt, decide_eq_true_eq] at hp ⊢
      exact h.directory l hp

/-- A name that is followed in a tree leads to the same place in one that extends it. -/
theorem Extends.step (h : t.Extends t') {p q : Position} {name : String} (hstep : t.step p name = .ok q) :
    t'.step p name = .ok q := by
  cases p with
  | outside => exact hstep
  | inside l =>
      cases hl : t.node? l with
      | none => simp [FileTree.step, hl] at hstep
      | some node =>
          cases node with
          | file content => simp [FileTree.step, hl] at hstep
          | directory =>
              simp only [FileTree.step, hl] at hstep
              simp only [FileTree.step, h.directory l hl]
              by_cases hhere : name = "."
              · rwa [if_pos hhere] at hstep ⊢
              by_cases hup : name = ".."
              · rwa [if_neg hhere, if_pos hup] at hstep ⊢
              by_cases hlong : maxNameBytes < name.utf8ByteSize
              · rw [if_neg hhere, if_neg hup, if_pos hlong] at hstep
                cases hstep
              rw [if_neg hhere, if_neg hup, if_neg hlong] at hstep ⊢
              split at hstep
              · next hthere => rwa [if_pos (h.isSome _ hthere)]
              · cases hstep

theorem Extends.foldlM_step (h : t.Extends t') {names : List String} {p q : Position}
    (hsteps : names.foldlM t.step p = .ok q) : names.foldlM t'.step p = .ok q := by
  induction names generalizing p with
  | nil => exact hsteps
  | cons name rest ih =>
      rw [List.foldlM_cons] at hsteps ⊢
      obtain ⟨p', hp', hrest⟩ := Outcome.bind_eq_ok.1 hsteps
      rw [h.step hp']
      exact ih hrest

theorem walk_eq (t : FileTree) (path : String) :
    t.walk path =
      if path.isEmpty then .error .notFound
      else match (names path).foldlM t.step (start path) with
        | .error e => .error e
        | .ok position =>
          if path.endsWith "/" && !t.isDirectoryAt position then .error .notADirectory else .ok position := by
  unfold walk
  simp only [bind, Except.bind, pure, Except.pure, throw, throwThe, MonadExceptOf.throw]
  cases path.isEmpty with
  | true => rfl
  | false =>
      cases (names path).foldlM t.step (start path) with
      | error e => rfl
      | ok position => cases path.endsWith "/" <;> cases t.isDirectoryAt position <;> rfl

theorem target_eq (t : FileTree) (path : String) :
    t.target path =
      if path.isEmpty then .error .notFound
      else match (names path).dropLast.foldlM t.step (start path) with
        | .error e => .error e
        | .ok position =>
          if t.isDirectoryAt position then
            match (names path).getLast? with
            | none => .ok (position, none)
            | some name =>
              if name = "." ∨ name = ".." then .ok (position, none)
              else if maxNameBytes < name.utf8ByteSize then .error .nameTooLong
              else .ok (position, some name)
          else .error .notADirectory := by
  unfold target
  simp only [bind, Except.bind, pure, Except.pure, throw, throwThe, MonadExceptOf.throw]
  cases path.isEmpty with
  | true => rfl
  | false =>
      cases (names path).dropLast.foldlM t.step (start path) with
      | error e => rfl
      | ok position =>
          cases hdirectory : t.isDirectoryAt position with
          | false => simp [hdirectory]
          | true =>
              cases (names path).getLast? with
              | none => simp [hdirectory]
              | some name => simp [hdirectory]

/-- A text that is written goes to a location in a directory: the path leads there but for its last name. -/
theorem target_eq_ok {position : Position} {name : String} (h : t.target path = .ok (position, some name)) :
    path.isEmpty = false ∧ (names path).dropLast.foldlM t.step (start path) = .ok position ∧
      t.isDirectoryAt position ∧ (names path).getLast? = some name ∧ name ≠ "." ∧ name ≠ ".." ∧
      ¬maxNameBytes < name.utf8ByteSize := by
  rw [target_eq] at h
  cases hempty : path.isEmpty with
  | true => simp [hempty] at h
  | false =>
      cases hsteps : (names path).dropLast.foldlM t.step (start path) with
      | error e => simp [hempty, hsteps] at h
      | ok p =>
          cases hdirectory : t.isDirectoryAt p with
          | false => simp [hempty, hsteps, hdirectory] at h
          | true =>
              cases hlast : (names path).getLast? with
              | none => simp [hempty, hsteps, hdirectory, hlast] at h
              | some last =>
                  simp only [hempty, hsteps, hdirectory, hlast] at h
                  by_cases hdots : last = "." ∨ last = ".."
                  · simp [hdots] at h
                  by_cases hlong : maxNameBytes < last.utf8ByteSize
                  · simp [hdots, hlong] at h
                  simp only [hdots, hlong, if_true, if_false] at h
                  cases h
                  rw [not_or] at hdots
                  exact ⟨rfl, rfl, hdirectory, rfl, hdots.1, hdots.2, hlong⟩

/-! ## Writing -/

/-- Setting a file is seen at its own location and at no other. -/
theorem find?_setFile (l l' : Location) (content : Content) (files : List (Location × Content)) :
    (setFile l content files).find? (·.1 = l') =
      if l' = l then some (l, content) else files.find? (·.1 = l') := by
  induction files with
  | nil => by_cases hl : l' = l <;> simp [setFile, hl, eq_comm]
  | cons entry rest ih =>
      by_cases hentry : entry.1 = l <;> by_cases hl : l' = l <;>
        simp_all [setFile, List.find?_cons, eq_comm]

/-- The tree with this file, in place of the one that was there. -/
def put (t : FileTree) (l : Location) (content : Content) : FileTree :=
  { t with files := setFile l content t.files }

theorem node?_put {content : Content} (hl : t.node? l ≠ some .directory) (l' : Location) :
    (t.put l content).node? l' = if l' = l then some (.file content) else t.node? l' := by
  have hfree : (l.isEmpty || t.directories.contains l) = false :=
    Bool.eq_false_iff.2 fun h => hl (by rw [node?, if_pos h])
  by_cases h : l' = l
  · subst h
    simp only [put, node?, hfree, find?_setFile]
    simp
  · simp only [put, node?, find?_setFile, if_neg h]

theorem extends_put (content : Content) (hl : t.node? l ≠ some .directory) :
    t.Extends (t.put l content) := by
  constructor
  · intro l' hl'
    rw [node?_put hl, if_neg (by rintro rfl; exact hl hl'), hl']
  · intro l' hl'
    rw [node?_put hl]
    split
    · rfl
    · exact hl'

theorem file?_put {content : Content} (hl : t.node? l ≠ some .directory) (l' : Location) :
    (t.put l content).file? l' = if l' = l then some content else t.file? l' := by
  simp only [file?, node?_put hl]
  by_cases h : l' = l <;> simp [h]

/-- What a text that is written does to the tree. -/
theorem exists_of_write_eq_ok {text : String} (h : t.write path text = .ok t') :
    ∃ l name, t.target path = .ok (.inside l, some name) ∧ path.endsWith "/" = false ∧
      t.node? (l ++ [name]) ≠ some .directory ∧ t' = t.put (l ++ [name]) (.text text) := by
  unfold write at h
  obtain ⟨⟨position, name?⟩, htarget, h⟩ := Outcome.bind_eq_ok.1 h
  cases name? with
  | none => cases h
  | some name =>
      cases position with
      | outside => cases h
      | inside l =>
          dsimp only at h
          split at h
          · cases h
          · next hplace =>
              cases h
              simp only [Bool.or_eq_true, decide_eq_true_eq, not_or, Bool.not_eq_true] at hplace
              exact ⟨l, name, htarget, hplace.1, hplace.2, rfl⟩

/-- The path that a file is written to leads to the file. -/
theorem walk_put (content : Content) {name : String} (htarget : t.target path = .ok (.inside l, some name))
    (hslash : path.endsWith "/" = false) (hplace : t.node? (l ++ [name]) ≠ some .directory) :
    (t.put (l ++ [name]) content).walk path = .ok (.inside (l ++ [name])) := by
  obtain ⟨hempty, hsteps, hdirectory, hlast, hhere, hup, hlong⟩ := target_eq_ok htarget
  have hextends := extends_put content hplace
  have hnames : names path = (names path).dropLast ++ [name] :=
    (List.dropLast_append_getLast? name hlast).symm
  have hl := hextends.isDirectoryAt hdirectory
  simp only [isDirectoryAt, decide_eq_true_eq] at hl
  have hstep : (t.put (l ++ [name]) content).step (.inside l) name = .ok (.inside (l ++ [name])) := by
    simp [step, hl, hhere, hup, hlong, node?_put hplace]
  rw [walk_eq, hempty, hnames, List.foldlM_append, hextends.foldlM_step hsteps]
  simp [hslash, hstep, bind, Except.bind, pure, Except.pure]

/-- **A text that is written goes to one file.** The path leads to it from then on, it reads back as it was
    written, and no other file changes. -/
theorem of_write_eq_ok {text : String} (h : t.write path text = .ok t') :
    ∃ l, t'.walk path = .ok (.inside l) ∧ t'.read path = .ok text ∧
      ∀ l', t'.file? l' = if l' = l then some (.text text) else t.file? l' := by
  obtain ⟨l, name, htarget, hslash, hplace, rfl⟩ := exists_of_write_eq_ok h
  have hwalk := walk_put (.text text) htarget hslash hplace
  refine ⟨l ++ [name], hwalk, ?_, file?_put hplace⟩
  unfold read
  rw [hwalk]
  simp [node?_put hplace, bind, Except.bind, pure, Except.pure]

end SchemaTyping.FileTree
