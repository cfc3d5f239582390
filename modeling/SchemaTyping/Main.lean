import SchemaTyping.CommandLine.Arguments
import SchemaTyping.CommandLine.Run

set_option autoImplicit false

/-! # The program

The command line on the file system of the machine. -/

namespace SchemaTyping

/-- The reason why the machine refuses an operation on a file. -/
def FileError.ofIOError : IO.Error → FileError
  | .noFileOrDirectory .. => .notFound
  | .alreadyExists .. => .alreadyExists
  | .permissionDenied .. => .denied
  | .inappropriateType _ code _ => if code = 21 then .isADirectory else .notADirectory
  | e => .other (toString e)

/-- Do something with a file, and keep what goes wrong as a value. -/
def attempt {α : Type} (action : IO α) : IO (Except FileError α) := do
  match ← action.toBaseIO with
  | .ok a => return .ok a
  | .error e => return .error (.ofIOError e)

instance : Host IO where
  readText path := do
    match ← attempt (IO.FS.readBinFile path) with
    | .error e => return .error e
    | .ok bytes =>
      match String.fromUTF8? bytes with
      | some text => return .ok text
      | none => return .error .notText
  isDirectory? path := do
    let file := (← IO.currentDir) / path
    if ← file.pathExists then return some (← file.isDir) else return none
  entries path := do
    match ← attempt ((← IO.currentDir) / path).readDir with
    | .ok entries => return .ok (entries.toList.map (·.fileName))
    | .error e => return .error e
  createDirectory path := attempt (IO.FS.createDir path)
  writeText path text := attempt (IO.FS.writeFile path text)
  print text := IO.print text
  report text := IO.eprint text

end SchemaTyping

open SchemaTyping CommandLine

/-- Follow the arguments. Errors are reported on the stream for messages. -/
def main (args : List String) : IO UInt32 := do
  match parse args with
  | .error e =>
    IO.eprintln e.message
    return e.code.toUInt32
  | .ok invocation =>
    match ← (run invocation : Run IO Unit).run with
    | .ok () => return 0
    | .error e =>
      IO.eprintln ("error: " ++ e.message)
      return 1
