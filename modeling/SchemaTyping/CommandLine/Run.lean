import SchemaTyping.CommandLine.Arguments
import SchemaTyping.Document.Loader
import SchemaTyping.Generate
import SchemaTyping.Glob.Search

set_option autoImplicit false

/-! # Running a command

A run reads the options, loads the documents, generates the declarations and reports what is worth
knowing. `generate` then writes the text, `check` counts what it would write. Everything that can fail
does so before the first file is written.

Runs are written for any `Host`. -/

namespace SchemaTyping.CommandLine

variable {m : Type → Type} [Monad m] [Host m]

/-! ## Errors -/

/-- Why a run fails. -/
inductive RunError where
  | config (file : String) (cause : DocumentError)
  | options (cause : DocumentError)
  | badPattern (pattern : String) (cause : Glob.Fault)
  | unlisted (directory : String) (cause : FileError)
  | noMatch (pattern : String)
  | unreadable (file : String) (cause : FileError)
  | notJson (file : String) (cause : Json.Problem)
  | document (file : String) (cause : DocumentError)
  | generation (cause : GenerateError)
  | notCreated (directory : String) (cause : FileError)
  | notWritten (file : String) (cause : FileError)

/-- The wording of an error: from the outermost cause to the innermost. -/
def RunError.message : RunError → String
  | .config file cause => "failed to load options from " ++ file ++ ": " ++ cause.message
  | .options cause => "invalid generation options: " ++ cause.message
  | .badPattern pattern cause => "bad glob pattern: " ++ pattern ++ ": " ++ cause.message
  | .unlisted directory cause =>
    "attempting to read `" ++ directory ++ "` resulted in an error: " ++ cause.message
  | .noMatch pattern => "glob pattern matched no files: " ++ pattern
  | .unreadable file cause => "failed to read schema document " ++ file ++ ": " ++ cause.message
  | .notJson file cause => "failed to parse JSON (" ++ file ++ "): " ++ cause.fault.message
  | .document file cause => "invalid schema document " ++ file ++ ": " ++ cause.message
  | .generation cause => cause.message ++ ": " ++ cause.cause.message
  | .notCreated directory cause => "failed to create " ++ directory ++ ": " ++ cause.message
  | .notWritten file cause => "failed to write " ++ file ++ ": " ++ cause.message

/-- A step of a run. -/
abbrev Run (m : Type → Type) := ExceptT RunError m

/-! ## Options -/

/-- The options in a file. -/
def optionsOfFile (file : String) : m (Except DocumentError Options) := do
  match ← readText file with
  | .ok text => return Options.ofText text
  | .error e => return .error (.invalid file (.unreadable e.message))

/-- Settings of the command line go before those of a file. -/
def override (settings : Settings) (o : Options) : Options where
  overrideKeyName := o.overrideKeyName
  wildcardSegment := o.wildcardSegment
  scalarNames := o.scalarNames
  objectName := o.objectName
  missingFields := if settings.skipMissing then .skip else o.missingFields
  references := if settings.strictReferences then .strict else o.references
  maxDepth := settings.maxDepth.getD o.maxDepth
  header := o.header

/-- The options of a run. -/
def options (settings : Settings) : Run m Options := do
  let base ← match settings.config with
    | none => pure {}
    | some file =>
      match ← optionsOfFile (m := m) file with
      | .ok o => pure o
      | .error e => throw (.config file e)
  let o := override settings base
  match o.validate with
  | .ok () => return o
  | .error e => throw (.options e)

/-! ## Documents -/

/-- The files that one input names: those that match it, if it is a pattern, and itself otherwise. -/
def filesOf (input : String) : Run m (List String) := do
  if Glob.isPattern input then
    match ← (Glob.search (m := m) input).run with
    | .error (.pattern fault) => throw (.badPattern input fault)
    | .error (.unreadable directory cause) => throw (.unlisted directory cause)
    | .ok [] => throw (.noMatch input)
    | .ok paths => return paths
  else return [input]

/-- Load the document in a text, or in the part of it that a pointer selects. -/
def loadText (file : String) (pointer : Option String) (l : Loader) (text : String) :
    Except RunError Loader :=
  let loaded : Except DocumentError Unit × Loader → Except RunError Loader
    | (.ok (), l) => .ok l
    | (.error e, _) => .error (.document file e)
  match pointer with
  | none => loaded (l.loadText text)
  | some pointer =>
    match Json.ofText text with
    | .error p => .error (.notJson file p)
    | .ok j =>
      match Document.select pointer j with
      | .error e => .error (.document file e)
      | .ok part => loaded (l.loadJson part)

/-- Load the document in a file. -/
def loadFile (pointer : Option String) (l : Loader) (file : String) : Run m Loader := do
  match ← readText (m := m) file with
  | .error e => throw (.unreadable file e)
  | .ok text => loadText file pointer l text

/-- The registry of all inputs. The files are all found before the first is read. -/
def registry (settings : Settings) (o : Options) : Run m Registry := do
  let files ← settings.inputs.mapM filesOf
  let l ← files.flatten.foldlM (loadFile settings.jsonPointer) { options := o }
  return l.registry

/-! ## Commands -/

/-- Generate from all inputs and report the diagnostics. -/
def generation (settings : Settings) (o : Options) : Run m Generated := do
  match generate (← registry settings o) o with
  | .error e => throw (.generation e)
  | .ok g =>
    g.diagnostics.forM fun d => (report ("warning: " ++ d.message ++ "\n") : m Unit)
    return g

/-- Create a directory and those above it that are missing. The first argument bounds their number. -/
def createDirectories : Nat → String → m (Except FileError Unit)
  | 0, _ => return .error .notFound
  | fuel + 1, path => do
    if path.isEmpty then return .ok ()
    match ← createDirectory path with
    | .ok () => return .ok ()
    | .error .notFound =>
      match Files.parent? path with
      | none => return .error .notFound
      | some parent =>
        match ← createDirectories fuel parent with
        | .error e => return .error e
        | .ok () => settled path (← createDirectory path)
    | outcome => settled path outcome
where
  /-- A directory that is there need not be created. -/
  settled (path : String) (outcome : Except FileError Unit) : m (Except FileError Unit) := do
    match outcome with
    | .ok () => return .ok ()
    | .error e => if (← isDirectory? path) == some true then return .ok () else return .error e

/-- Write the text to a file, in a directory that is created if it is missing. -/
def save (file text : String) : Run m Unit := do
  match Files.parent? file with
  | none => pure ()
  | some directory =>
    match ← createDirectories (m := m) (directory.length + 1) directory with
    | .ok () => pure ()
    | .error e => throw (.notCreated directory e)
  match ← writeText (m := m) file text with
  | .ok () => (report ("File saved: " ++ file ++ "\n") : m Unit)
  | .error e => throw (.notWritten file e)

/-- Do what is asked for. -/
def run : Invocation → Run m Unit
  | .generate settings out noHeader => do
    let o ← options settings
    let g ← generation settings { o with header := o.header && !noHeader }
    match out with
    | none => (print g.text : m Unit)
    | some file => save file g.text
  | .check settings => do
    let o ← options settings
    let g ← generation settings o
    let counts := toString g.declarations.length ++ " declarations, "
      ++ toString g.diagnostics.length ++ " diagnostics"
    (report ("ok: " ++ counts ++ "\n") : m Unit)

end SchemaTyping.CommandLine
