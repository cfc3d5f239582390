set_option autoImplicit false

/-! # Command line arguments

`parse` reads the arguments of the program into an `Invocation`, the command and its settings, or finds
the `UsageError` that makes a run impossible. Asking for help or for the version counts as one.

An option that takes values first collects them. They are checked and stored when the next option that is
known starts or the arguments end, so the first fault in this order is the one reported. -/

namespace SchemaTyping.CommandLine

/-! ## What is read -/

/-- Settings that both commands have. -/
structure Settings where
  inputs : List String := []
  jsonPointer : Option String := none
  config : Option String := none
  skipMissing : Bool := false
  strictReferences : Bool := false
  maxDepth : Option Nat := none
  deriving DecidableEq

/-- What to do. -/
inductive Invocation where
  /-- Write the declarations, to a file or to the output stream. -/
  | generate (settings : Settings) (out : Option String) (noHeader : Bool)
  /-- Only report what a generation finds. -/
  | check (settings : Settings)
  deriving DecidableEq

/-- Why the arguments cannot be followed. -/
inductive UsageError where
  | help
  | version
  | helpForNothing
  | missingSubcommand
  | invalidSubcommand
  | unknownArgument
  | missingValue
  | badValue
  | repeated
  | unwantedValue
  | missingRequired
  deriving DecidableEq

/-- The wording of an error. -/
def UsageError.message : UsageError → String
  | .help => "help is asked for"
  | .version => "the version is asked for"
  | .helpForNothing => "there are no arguments"
  | .missingSubcommand => "a command is missing"
  | .invalidSubcommand => "there is no such command"
  | .unknownArgument => "there is no such argument"
  | .missingValue => "a value is missing"
  | .badValue => "a value is no number of this size"
  | .repeated => "an option is given twice"
  | .unwantedValue => "an option takes no value"
  | .missingRequired => "an input is missing"

/-- What the program returns to its caller: zero for help and version that were asked for. -/
def UsageError.code : UsageError → Nat
  | .help | .version => 0
  | _ => 2

/-! ## Options -/

/-- The options of the commands. -/
inductive Opt where
  | verbose
  | help
  | version
  | input
  | jsonPointer
  | config
  | skipMissing
  | strictReferences
  | maxDepth
  | out
  | noHeader
  deriving DecidableEq

/-- The subcommands. -/
inductive Command where
  | generate
  | check
  deriving DecidableEq

/-- What stands where a subcommand is expected. -/
inductive Subcommand where
  | run (command : Command)
  | help
  deriving DecidableEq

/-- The subcommand with a name. -/
def Subcommand.ofName? : String → Option Subcommand
  | "generate" => some (.run .generate)
  | "check" => some (.run .check)
  | "help" => some .help
  | _ => none

/-- The options that a command has; without a command, those in front of it. -/
def Opt.allowed : Option Command → Opt → Bool
  | _, .verbose | _, .help => true
  | none, .version => true
  | none, _ => false
  | some _, .version => false
  | some .check, .out | some .check, .noHeader => false
  | some _, _ => true

/-- An option by its long name. -/
def Opt.ofLong? : String → Option Opt
  | "verbose" => some .verbose
  | "help" => some .help
  | "version" => some .version
  | "input" => some .input
  | "json-pointer" => some .jsonPointer
  | "config" => some .config
  | "skip-missing" => some .skipMissing
  | "strict-references" => some .strictReferences
  | "max-depth" => some .maxDepth
  | "out" => some .out
  | "no-header" => some .noHeader
  | _ => none

/-- An option by its letter. -/
def Opt.ofShort? : Char → Option Opt
  | 'v' => some .verbose
  | 'h' => some .help
  | 'V' => some .version
  | 'i' => some .input
  | 'o' => some .out
  | _ => none

/-- Does the option take values? -/
def Opt.takesValues : Opt → Bool
  | .input | .jsonPointer | .config | .maxDepth | .out => true
  | _ => false

/-- May the option be given more than once? -/
def Opt.repeats : Opt → Bool
  | .verbose | .input => true
  | _ => false

/-- Does the option go on taking values after the first? -/
def Opt.takesMany : Opt → Bool
  | .input => true
  | _ => false

/-! ## Reading -/

/-- The options read so far. -/
structure State where
  settings : Settings := {}
  out : Option String := none
  noHeader : Bool := false
  /-- The options that have been stored. -/
  given : List Opt := []
  /-- An option whose values are not stored yet. -/
  pending : Option (Opt × List String) := none
  /-- The pending option takes the next argument, if it is no option. -/
  accepts : Bool := false

/-- A natural number of at most 64 bits, with or without a plus sign. -/
def count? (text : String) : Option Nat :=
  let digits := match text.toList with
    | '+' :: rest => rest
    | rest => rest
  if digits.isEmpty || !digits.all Char.isDigit then none
  else
    let n := digits.foldl (fun n c => 10 * n + (c.toNat - '0'.toNat)) 0
    if n < 1 <<< 64 then some n else none

/-- A path, which may not be empty. -/
def path (value : String) : Except UsageError (Option String) :=
  if value.isEmpty then .error .missingValue else .ok (some value)

/-- Store an option with its values. -/
def store (s : State) (opt : Opt) (values : List String) : Except UsageError State := do
  if opt.takesValues && values.isEmpty then throw .missingValue
  if !opt.repeats && s.given.contains opt then throw .repeated
  let s := { s with given := opt :: s.given }
  let settings := s.settings
  let value := values.headD ""
  match opt with
  | .help => throw .help
  | .version => throw .version
  | .verbose => return s
  | .input => return { s with settings := { settings with inputs := settings.inputs ++ values } }
  | .jsonPointer => return { s with settings := { settings with jsonPointer := some value } }
  | .config => return { s with settings := { settings with config := ← path value } }
  | .skipMissing => return { s with settings := { settings with skipMissing := true } }
  | .strictReferences => return { s with settings := { settings with strictReferences := true } }
  | .maxDepth =>
    match count? value with
    | some n => return { s with settings := { settings with maxDepth := some n } }
    | none => throw .badValue
  | .out => return { s with out := ← path value }
  | .noHeader => return { s with noHeader := true }

/-- Store the option that is pending. -/
def settle (s : State) : Except UsageError State :=
  match s.pending with
  | none => .ok { s with accepts := false }
  | some (opt, values) => store { s with pending := none, accepts := false } opt values

/-- Start an option with the value that is attached to it, if there is one. -/
def start (s : State) (opt : Opt) (attached : Option String) : Except UsageError State :=
  if opt.takesValues then do
    let s ← settle s
    match attached with
    | some value => store s opt [value]
    | none => return { s with pending := some (opt, []), accepts := true }
  else
    match attached with
    | some _ => .error .unwantedValue
    | none => do store (← settle s) opt []

/-- An argument that starts with two hyphens. -/
def readLong (command : Option Command) (s : State) (text : List Char) :
    Except UsageError State :=
  let name := String.ofList (text.takeWhile (· ≠ '='))
  let attached := match text.dropWhile (· ≠ '=') with
    | [] => none
    | _ :: value => some (String.ofList value)
  match Opt.ofLong? name with
  | some opt => if opt.allowed command then start s opt attached else .error .unknownArgument
  | none => .error .unknownArgument

/-- The letters of an argument that starts with one hyphen. What follows the letter of an option that
    takes values is its value. -/
def readShort (command : Option Command) (s : State) : List Char → Except UsageError State
  | [] => .ok s
  | letter :: rest =>
    match Opt.ofShort? letter with
    | none => .error .unknownArgument
    | some opt =>
      if !opt.allowed command then .error .unknownArgument
      else if opt.takesValues then
        start s opt <| match rest with
          | [] => none
          | '=' :: value => some (String.ofList value)
          | value => some (String.ofList value)
      else do readShort command (← start s opt none) rest

/-- An argument that is a value: of the pending option, if that takes it. -/
def readValue (s : State) (value : String) : Option State :=
  match s.pending with
  | some (opt, values) =>
    if s.accepts then
      some { s with pending := some (opt, values ++ [value]), accepts := opt.takesMany }
    else none
  | none => none

/-- The arguments of a command, from one on. Behind two hyphens there are no options, and no command takes
    anything else. -/
def readArguments (command : Command) (s : State) : List String → Except UsageError State
  | [] => settle s
  | argument :: rest =>
    match argument.toList with
    | ['-', '-'] => if rest.isEmpty then settle s else .error .unknownArgument
    | '-' :: '-' :: text => do readArguments command (← readLong (some command) s text) rest
    | '-' :: letter :: text => do
      readArguments command (← readShort (some command) s (letter :: text)) rest
    | _ =>
      match readValue s argument with
      | some s => readArguments command s rest
      | none => .error .unknownArgument

/-- The settings of a command. -/
def readCommand (command : Command) (arguments : List String) : Except UsageError Invocation := do
  let s ← readArguments command {} arguments
  if s.settings.inputs.isEmpty then throw .missingRequired
  match command with
  | .generate => return .generate s.settings s.out s.noHeader
  | .check => return .check s.settings

/-- The arguments behind the subcommand for help: names of subcommands, none below another. -/
def readHelp : List String → UsageError
  | [] => .help
  | [name] => if (Subcommand.ofName? name).isSome then .help else .invalidSubcommand
  | _ => .invalidSubcommand

/-- The arguments up to the subcommand. -/
def readTop (s : State) : List String → Except UsageError Invocation
  | [] => .error (if s.given.isEmpty then .helpForNothing else .missingSubcommand)
  | argument :: rest =>
    match Subcommand.ofName? argument with
    | some (.run command) => readCommand command rest
    | some .help => .error (readHelp rest)
    | none =>
      match argument.toList with
      | ['-', '-'] =>
        match rest with
        | [] => .error (if s.given.isEmpty then .helpForNothing else .missingSubcommand)
        | next :: _ =>
          .error (if (Subcommand.ofName? next).isSome then .unknownArgument else .invalidSubcommand)
      | '-' :: '-' :: text => do readTop (← readLong none s text) rest
      | '-' :: letter :: text => do readTop (← readShort none s (letter :: text)) rest
      | _ => .error .invalidSubcommand

/-- Read the arguments of the program. -/
def parse (arguments : List String) : Except UsageError Invocation := readTop {} arguments

end SchemaTyping.CommandLine
