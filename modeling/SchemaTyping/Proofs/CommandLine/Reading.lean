import SchemaTyping.CommandLine.Run

set_option autoImplicit false

/-! # What a run does before it writes

Everything a run does before it has generated something asks the host for texts and directories and does
nothing else. What is true of these requests and is kept by putting steps together is therefore true of
reading the options, of looking for files and of loading them, on any host. -/

namespace SchemaTyping

variable {m : Type → Type} [Monad m] {P : ∀ ⦃α : Type⦄, m α → Prop} {α β ε : Type}

/-! ## Steps made of others -/

/-- A property of steps that those have which do nothing and those which are made of others with it. -/
structure Composes (P : ∀ ⦃α : Type⦄, m α → Prop) : Prop where
  pure : ∀ {α : Type} (a : α), P (pure a)
  bind : ∀ {α β : Type} {x : m α} {f : α → m β}, P x → (∀ a, P (f a)) → P (x >>= f)

namespace Composes

theorem foldlM (h : Composes P) {f : β → α → m β} (hf : ∀ b a, P (f b a)) (xs : List α) (b : β) :
    P (xs.foldlM f b) := by
  induction xs generalizing b with
  | nil => exact h.pure b
  | cons x xs ih =>
      rw [List.foldlM_cons]
      exact h.bind (hf b x) ih

/-- Steps that may be refused are made of steps that may not. -/
theorem exceptT (h : Composes P) : Composes fun ⦃α⦄ (x : ExceptT ε m α) => P x.run where
  pure a := h.pure (Except.ok a)
  bind {α β x f} hx hf := by
    rw [ExceptT.run_bind]
    refine h.bind hx fun outcome => ?_
    cases outcome with
    | ok a => exact hf a
    | error e => exact h.pure _

theorem throw (h : Composes P) (e : ε) : P (throw e : ExceptT ε m α).run := h.pure (Except.error e)

variable [LawfulMonad m]

theorem mapM (h : Composes P) {f : α → m β} (hf : ∀ a, P (f a)) (xs : List α) : P (xs.mapM f) := by
  induction xs with
  | nil => exact h.pure []
  | cons x xs ih =>
      rw [List.mapM_cons]
      exact h.bind (hf x) fun y => h.bind ih fun ys => h.pure (y :: ys)

theorem lift (h : Composes P) {x : m α} (hx : P x) : P (liftM x : ExceptT ε m α).run := by
  rw [ExceptT.run_liftM, map_eq_pure_bind]
  exact h.bind hx fun a => h.pure _

end Composes

/-! ## Reading -/

/-- A property that asking for texts and directories has. -/
structure HoldsOfReading [Host m] (P : ∀ ⦃α : Type⦄, m α → Prop) : Prop extends Composes P where
  readText : ∀ path, P (readText path)
  isDirectory? : ∀ path, P (isDirectory? path)
  entries : ∀ path, P (Host.entries path)

namespace HoldsOfReading

variable [Host m] [LawfulMonad m]

theorem found (h : HoldsOfReading P) (directoriesOnly : Bool) (path : String) :
    P (Glob.found (m := m) directoriesOnly path).run := by
  unfold Glob.found
  refine h.exceptT.bind (h.lift (h.isDirectory? path)) fun there => ?_
  split
  · exact h.exceptT.pure []
  · exact h.exceptT.pure [path]

section

variable {directoriesOnly : Bool} {fuel : Nat}
  (hfill : ∀ pieces path, P (Glob.fill (m := m) directoriesOnly fuel pieces path).run)

include hfill

/-- What is done with an entry that fits a piece. -/
theorem proceed (h : HoldsOfReading P) (rest : List Glob.Piece) (next : String) :
    P (if rest.isEmpty then Glob.found (m := m) directoriesOnly next
      else Glob.fill directoriesOnly fuel rest next).run := by
  split
  · exact h.found directoriesOnly next
  · exact hfill rest next

/-- What is done with an entry that may fit the first of the pieces. -/
theorem compare (h : HoldsOfReading P) (path name : String) (pieces : List Glob.Piece) :
    P (match pieces with
      | [] => pure []
      | next :: more =>
        if Glob.matchesTokens next name.toList then
          if more.isEmpty then Glob.found (m := m) directoriesOnly path
          else Glob.fill directoriesOnly fuel more path
        else pure []).run := by
  cases pieces with
  | nil => exact h.exceptT.pure []
  | cons next more =>
      dsimp only
      split
      · exact h.proceed hfill more path
      · exact h.exceptT.pure []

theorem visit_succ (h : HoldsOfReading P) (pieces : List Glob.Piece) (path name : String) :
    P (Glob.visit (m := m) directoriesOnly (fuel + 1) pieces path name).run := by
  cases pieces with
  | nil =>
      rw [Glob.visit]
      · exact h.exceptT.pure []
      · exact Nat.succ_ne_zero fuel
  | cons piece rest =>
      have hcompare := h.compare hfill path name
      rw [Glob.visit]
      dsimp only
      split
      · refine h.exceptT.bind (h.lift (h.isDirectory? path)) fun isDirectory => ?_
        have hbelow (here : List String) : P (do
            let below ← if isDirectory == some true then
                Glob.fill directoriesOnly fuel (piece :: rest.dropWhile Glob.isRecursive) path
              else pure []
            return here ++ below : Glob.Search m (List String)).run := by
          split
          · exact h.exceptT.bind (hfill _ _) fun below => h.exceptT.pure _
          · exact h.exceptT.bind (h.exceptT.pure _) fun below => h.exceptT.pure _
        split
        · exact h.exceptT.bind (h.exceptT.pure _) hbelow
        · exact h.exceptT.bind (hcompare _) hbelow
      · exact hcompare (piece :: rest)

theorem fill_succ (h : HoldsOfReading P)
    (hvisit : ∀ pieces path name, P (Glob.visit (m := m) directoriesOnly fuel pieces path name).run)
    (pieces : List Glob.Piece) (path : String) :
    P (Glob.fill (m := m) directoriesOnly (fuel + 1) pieces path).run := by
  cases pieces with
  | nil =>
      rw [Glob.fill]
      · exact h.exceptT.pure []
      · exact Nat.succ_ne_zero fuel
  | cons piece rest =>
      rw [Glob.fill]
      refine h.exceptT.bind (h.lift (h.isDirectory? path)) fun isDirectory => ?_
      cases Glob.literal? piece with
      | some name =>
          have hthere (there : Bool) : P (if there then
              if rest.isEmpty then
                Glob.found (m := m) directoriesOnly (Glob.entryPath path (String.ofList name))
              else Glob.fill directoriesOnly fuel rest (Glob.entryPath path (String.ofList name))
            else pure []).run := by
            split
            · exact h.proceed hfill rest _
            · exact h.exceptT.pure []
          dsimp only
          split
          · exact h.exceptT.bind (h.exceptT.pure _) hthere
          · refine h.exceptT.bind (h.lift (h.isDirectory? _)) fun found => ?_
            exact h.exceptT.bind (h.exceptT.pure _) hthere
      | none =>
          dsimp only
          split
          · exact h.exceptT.pure []
          refine h.exceptT.bind (h.lift (h.entries path)) fun names => ?_
          cases names with
          | error e => exact h.throw _
          | ok names =>
              refine h.exceptT.bind (h.exceptT.mapM (fun entry => h.proceed hfill rest _) _) fun special => ?_
              exact h.exceptT.bind (h.exceptT.mapM (fun name => hvisit _ _ _) _) fun below => h.exceptT.pure _

end

/-- Looking for files is made of these requests, level by level. -/
theorem fill_and_visit (h : HoldsOfReading P) (directoriesOnly : Bool) (fuel : Nat) :
    (∀ pieces path, P (Glob.fill (m := m) directoriesOnly fuel pieces path).run) ∧
      ∀ pieces path name, P (Glob.visit (m := m) directoriesOnly fuel pieces path name).run := by
  induction fuel with
  | zero =>
      constructor
      · intro pieces path
        rw [Glob.fill]
        exact h.exceptT.pure []
      · intro pieces path name
        rw [Glob.visit]
        exact h.exceptT.pure []
  | succ fuel ih =>
      obtain ⟨hfill, hvisit⟩ := ih
      exact ⟨h.fill_succ hfill hvisit, h.visit_succ hfill⟩

theorem search (h : HoldsOfReading P) (pattern : String) : P (Glob.search (m := m) pattern).run := by
  unfold Glob.search
  dsimp only
  split
  · exact h.throw _
  · exact h.exceptT.bind ((h.fill_and_visit _ _).1 _ _) fun paths => h.exceptT.pure _

/-! ## The parts of a run -/

open CommandLine

omit [LawfulMonad m] in
theorem optionsOfFile (h : HoldsOfReading P) (file : String) : P (CommandLine.optionsOfFile file) := by
  unfold CommandLine.optionsOfFile
  refine h.bind (h.readText file) fun text => ?_
  split
  · exact h.pure _
  · exact h.pure _

theorem filesOf (h : HoldsOfReading P) (input : String) : P (CommandLine.filesOf (m := m) input).run := by
  unfold CommandLine.filesOf
  split
  · refine h.exceptT.bind (h.lift (h.search input)) fun found => ?_
    split
    · exact h.throw _
    · exact h.throw _
    · exact h.throw _
    · exact h.pure _
  · exact h.pure _

omit [LawfulMonad m] in
/-- Options are taken if they are valid. -/
theorem validated (h : HoldsOfReading P) (o : Options) :
    P (match o.validate with
      | .ok () => return o
      | .error e => throw (.options e) : Run m Options).run := by
  split
  · exact h.pure _
  · exact h.throw _

theorem options (h : HoldsOfReading P) (settings : Settings) :
    P (CommandLine.options (m := m) settings).run := by
  unfold CommandLine.options
  have hvalid (base : Options) := h.validated (override settings base)
  cases settings.config with
  | none => exact h.exceptT.bind (h.exceptT.pure _) hvalid
  | some file =>
      refine h.exceptT.bind (h.lift (h.optionsOfFile file)) fun found => ?_
      cases found with
      | ok o => exact h.exceptT.bind (h.exceptT.pure o) hvalid
      | error e => exact h.exceptT.bind (h.throw _) hvalid

theorem loadFile (h : HoldsOfReading P) (pointer : Option String) (l : Loader) (file : String) :
    P (CommandLine.loadFile (m := m) pointer l file).run := by
  unfold CommandLine.loadFile
  refine h.exceptT.bind (h.lift (h.readText file)) fun text => ?_
  split
  · exact h.throw _
  · exact h.pure _

theorem registry (h : HoldsOfReading P) (settings : Settings) (o : Options) :
    P (CommandLine.registry (m := m) settings o).run := by
  unfold CommandLine.registry
  refine h.exceptT.bind (h.exceptT.mapM h.filesOf settings.inputs) fun files => ?_
  exact h.exceptT.bind (h.exceptT.foldlM (h.loadFile settings.jsonPointer) _ _) fun l => h.pure _

end HoldsOfReading

end SchemaTyping
