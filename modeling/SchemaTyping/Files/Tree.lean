import SchemaTyping.Files.Host
import SchemaTyping.Text.Split

set_option autoImplicit false

/-! # File trees

A `FileTree` is a working directory with everything below it. Paths are followed name by name: every name
but the last must be that of a directory, `.` stays and `..` goes up. Nothing is known of what lies
outside of the working directory, so no name is found there.

`World` adds what has been written on the output streams; it is a host. -/

namespace SchemaTyping

/-- The content of a file. -/
inductive Content where
  | text (text : String)
  /-- Bytes that are no text. -/
  | binary
  deriving DecidableEq

/-- The names that lead from the working directory to a file or a directory below it. -/
abbrev Location := List String

/-- Files and directories below a working directory, which is a directory itself. -/
structure FileTree where
  files : List (Location × Content) := []
  directories : List Location := []
  deriving DecidableEq

namespace FileTree

/-! ## Looking up -/

/-- What is found at a location. -/
inductive Node where
  | file (content : Content)
  | directory
  deriving DecidableEq

/-- The node at a location. -/
def node? (t : FileTree) (l : Location) : Option Node :=
  if l.isEmpty || t.directories.contains l then some .directory
  else (t.files.find? (·.1 = l)).map fun entry => .file entry.2

/-- Where a path leads. -/
inductive Position where
  | inside (location : Location)
  | outside
  deriving DecidableEq

/-- Names of more bytes than this are refused. -/
def maxNameBytes : Nat := 255

/-- Follow one name. -/
def step (t : FileTree) : Position → String → Except FileError Position
  | .outside, name => if name = "." ∨ name = ".." then .ok .outside else .error .notFound
  | .inside l, name =>
    match t.node? l with
    | none => .error .notFound
    | some (.file _) => .error .notADirectory
    | some .directory =>
      if name = "." then .ok (.inside l)
      else if name = ".." then .ok (if l.isEmpty then .outside else .inside l.dropLast)
      else if maxNameBytes < name.utf8ByteSize then .error .nameTooLong
      else if (t.node? (l ++ [name])).isSome then .ok (.inside (l ++ [name]))
      else .error .notFound

/-- Is there a directory at the position? -/
def isDirectoryAt (t : FileTree) : Position → Bool
  | .outside => true
  | .inside l => t.node? l = some .directory

/-- The names in a path. -/
def names (path : String) : List String :=
  ((Text.split '/' path.toList).map String.ofList).filter fun name => !name.isEmpty

/-- Where following a path starts. -/
def start (path : String) : Position := if path.startsWith "/" then .outside else .inside []

/-- Follow a path. With a slash at its end it must lead to a directory. -/
def walk (t : FileTree) (path : String) : Except FileError Position := do
  if path.isEmpty then throw .notFound
  let position ← (names path).foldlM t.step (start path)
  if path.endsWith "/" && !t.isDirectoryAt position then throw .notADirectory
  return position

/-- The text of the file at a path. -/
def read (t : FileTree) (path : String) : Except FileError String := do
  match ← t.walk path with
  | .outside => throw .isADirectory
  | .inside l =>
    match t.node? l with
    | none => throw .notFound
    | some .directory => throw .isADirectory
    | some (.file .binary) => throw .notText
    | some (.file (.text s)) => return s

/-- The names of the entries of the directory at a path. -/
def entriesAt (t : FileTree) (path : String) : Except FileError (List String) := do
  match ← t.walk path with
  | .outside => return []
  | .inside l =>
    if t.node? l = some .directory then
      return (t.files.map (·.1) ++ t.directories).filterMap fun entry =>
        match l.isPrefixOf? entry with
        | some [name] => some name
        | _ => none
    else throw .notADirectory

/-! ## Changing -/

/-- The directory that a new entry goes to, and the name of the entry. The name is missing when the path
    ends in `.` or `..` or is the root. -/
def target (t : FileTree) (path : String) : Except FileError (Position × Option String) := do
  if path.isEmpty then throw .notFound
  let all := names path
  let position ← all.dropLast.foldlM t.step (start path)
  if !t.isDirectoryAt position then throw .notADirectory
  match all.getLast? with
  | none => return (position, none)
  | some name =>
    if name = "." ∨ name = ".." then return (position, none)
    else if maxNameBytes < name.utf8ByteSize then throw .nameTooLong
    else return (position, some name)

/-- Create a directory in one that exists. -/
def makeDirectory (t : FileTree) (path : String) : Except FileError FileTree := do
  match ← t.target path with
  | (_, none) => throw .alreadyExists
  | (.outside, some _) => throw .denied
  | (.inside l, some name) =>
    if (t.node? (l ++ [name])).isSome then throw .alreadyExists
    else return { t with directories := t.directories ++ [l ++ [name]] }

/-- The files with the content of one replaced, or with one more. -/
def setFile (l : Location) (content : Content) : List (Location × Content) → List (Location × Content)
  | [] => [(l, content)]
  | entry :: rest =>
    if entry.1 = l then (l, content) :: rest else entry :: setFile l content rest

/-- Create a file or replace its content. -/
def write (t : FileTree) (path text : String) : Except FileError FileTree := do
  match ← t.target path with
  | (_, none) => throw .isADirectory
  | (.outside, some _) => throw .denied
  | (.inside l, some name) =>
    if path.endsWith "/" || t.node? (l ++ [name]) = some .directory then throw .isADirectory
    else return { t with files := setFile (l ++ [name]) (.text text) t.files }

/-- The directories above a location, without the working directory. -/
def above (l : Location) : List Location :=
  (List.range l.length).filterMap fun n => if n = 0 then none else some (l.take n)

/-- The tree of these files, with the directories that they need. -/
def ofFiles (files : List (Location × Content)) : FileTree where
  files := files
  directories := (files.flatMap fun entry => above entry.1).eraseDups

end FileTree

/-- A file tree and what has been written on the streams. -/
structure World where
  tree : FileTree
  output : String := ""
  messages : String := ""

namespace World

/-- Change the tree, if that is possible. -/
def change (f : FileTree → Except FileError FileTree) : StateM World (Except FileError Unit) :=
  modifyGet fun w =>
    match f w.tree with
    | .ok tree => (.ok (), { w with tree })
    | .error e => (.error e, w)

instance : Host (StateM World) where
  readText path := do return (← get).tree.read path
  isDirectory? path := do
    let t := (← get).tree
    match t.walk path with
    | .ok position => return some (t.isDirectoryAt position)
    | .error _ => return none
  entries path := do return (← get).tree.entriesAt path
  createDirectory path := change (·.makeDirectory path)
  writeText path text := change (·.write path text)
  print text := modify fun w => { w with output := w.output ++ text }
  report text := modify fun w => { w with messages := w.messages ++ text }

end World

end SchemaTyping
