set_option autoImplicit false

/-! # What a program needs of its surroundings

A `Host` gives access to files and to the two output streams. A command that is written for any host runs
on the file system of a machine and on a file tree held in memory alike, and what is proved of the latter
does not depend on any particular machine. -/

namespace SchemaTyping

/-- Why a file cannot be used. -/
inductive FileError where
  | notFound
  | notADirectory
  | isADirectory
  | alreadyExists
  | nameTooLong
  | denied
  /-- The content of the file is no text. -/
  | notText
  | other (message : String)
  deriving DecidableEq

/-- The wording of an error. -/
def FileError.message : FileError → String
  | .notFound => "No such file or directory (os error 2)"
  | .denied => "Permission denied (os error 13)"
  | .alreadyExists => "File exists (os error 17)"
  | .notADirectory => "Not a directory (os error 20)"
  | .isADirectory => "Is a directory (os error 21)"
  | .nameTooLong => "File name too long (os error 36)"
  | .notText => "stream did not contain valid UTF-8"
  | .other message => message

/-- Files and output streams. Paths are relative to a working directory unless they start at the root. -/
class Host (m : Type → Type) where
  /-- The text of a file. -/
  readText : String → m (Except FileError String)
  /-- Is there something at the path, and if so, is it a directory? -/
  isDirectory? : String → m (Option Bool)
  /-- The names of the entries of a directory. -/
  entries : String → m (Except FileError (List String))
  /-- Create a directory in one that exists. -/
  createDirectory : String → m (Except FileError Unit)
  /-- Create a file or replace its content. -/
  writeText : String → String → m (Except FileError Unit)
  /-- Write on the output stream. -/
  print : String → m Unit
  /-- Write on the stream for messages. -/
  report : String → m Unit

export Host (readText isDirectory? createDirectory writeText print report)

end SchemaTyping
