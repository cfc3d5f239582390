import SchemaTyping.Files.Host
import SchemaTyping.Files.Path
import SchemaTyping.Glob.Pattern

set_option autoImplicit false

/-! # Finding files by pattern

`Glob.search` lists the files and directories whose paths have the form of a pattern, sorted by the
components of their paths. The pattern is cut at the slashes; each piece is compared with one name. A piece
without special characters is not compared but looked up. The search ends at the first directory that has to
be read and cannot be. -/

namespace SchemaTyping.Glob

variable {m : Type → Type} [Monad m] [Host m]

/-- Directories are not followed below this many levels: no path has more names. -/
def maxLevels : Nat := 2048

/-- A piece of a pattern. -/
abbrev Piece := List Token

/-- Does a piece stand for any number of directories? -/
def isRecursive (piece : Piece) : Bool := piece.contains .anyDirectories

/-- Why a search fails. -/
inductive SearchError where
  | pattern (cause : Fault)
  | unreadable (directory : String) (cause : FileError)

/-- A step of a search. -/
abbrev Search (m : Type → Type) := ExceptT SearchError m

/-- The path of an entry of a directory; those of the working directory are bare names. -/
def entryPath (directory entry : String) : String :=
  if directory = "." then entry else Files.join directory entry

/-- A path that has been found, unless a directory is wanted and it is none. -/
def found (directoriesOnly : Bool) (path : String) : Search m (List String) := do
  if directoriesOnly && (← isDirectory? (m := m) path) != some true then return []
  else return [path]

/-- The entries that a piece with special characters does not find, though it describes them: `..` and
    `.`, if it starts with a point. -/
def dotEntries (piece : Piece) : List String :=
  if piece.head? = some (.char '.') then
    ["..", "."].filter fun entry => matchesTokens piece entry.toList
  else []

mutual

/-- What the pieces of a pattern find in a directory. Its entries are visited in the order of their names. -/
def fill (directoriesOnly : Bool) : Nat → List Piece → String → Search m (List String)
  | 0, _, _ => return []
  | _, [], _ => return []
  | fuel + 1, piece :: rest, path => do
    let proceed (next : String) : Search m (List String) :=
      if rest.isEmpty then found directoriesOnly next
      else fill directoriesOnly fuel rest next
    let isDirectory := (← isDirectory? (m := m) path) == some true
    match literal? piece with
    | some name =>
      let name := String.ofList name
      let next := entryPath path name
      let there ← if name = "." ∨ name = ".." then pure isDirectory
        else do pure (← isDirectory? (m := m) next).isSome
      if there then proceed next else return []
    | none =>
      if !isDirectory then return []
      match ← Host.entries (m := m) path with
      | .error e => throw (.unreadable path e)
      | .ok names =>
        let special ← (dotEntries piece).mapM fun entry => proceed (Files.join path entry)
        let below ← (names.mergeSort (· ≤ ·)).mapM fun name =>
          visit directoriesOnly fuel (piece :: rest) (entryPath path name) name
        return special.flatten ++ below.flatten

/-- What the pieces find at an entry of a directory and below it. -/
def visit (directoriesOnly : Bool) : Nat → List Piece → String → String → Search m (List String)
  | 0, _, _, _ => return []
  | _, [], _, _ => return []
  | fuel + 1, piece :: rest, path, name => do
    let compare : List Piece → Search m (List String)
      | [] => return []
      | next :: more =>
        if matchesTokens next name.toList then
          if more.isEmpty then found directoriesOnly path
          else fill directoriesOnly fuel more path
        else return []
    if isRecursive piece then
      let others := rest.dropWhile isRecursive
      let isDirectory := (← isDirectory? (m := m) path) == some true
      let here ← if others.isEmpty then pure (if isDirectory then [path] else [])
        else compare others
      let below ← if isDirectory then fill directoriesOnly fuel (piece :: others) path else pure []
      return here ++ below
    else compare (piece :: rest)

end

/-- The pieces of a pattern without the slashes at its start; a slash at the end starts no piece. -/
def pieces (pattern : List Char) : Except Fault (List Piece) :=
  let texts := Text.split '/' (pattern.dropWhile (· = '/'))
  let texts := if texts.getLast? = some [] then texts.dropLast else texts
  texts.mapM parse

/-- The paths that have the form of a pattern, in order. The pattern is read as a whole first. -/
def search (pattern : String) : Search m (List String) := do
  let chars := pattern.toList
  let read : Except Fault (List Piece) := do
    let _ ← parse chars
    pieces chars
  match read with
  | .error fault => throw (.pattern fault)
  | .ok pieces =>
    let start := if pattern.startsWith "/" then "/" else "."
    let paths ← fill (pattern.endsWith "/") (2 * (pieces.length + maxLevels)) pieces start
    return paths.mergeSort Files.pathLe

end SchemaTyping.Glob
