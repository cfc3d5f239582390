import SchemaTyping.Text.Split

set_option autoImplicit false

/-! # The text of a file path

Paths stay the texts they were given as, because messages show them so. This file reads three things off
such a text: the path of the directory above (`Files.parent?`), the components by which paths are sorted
(`Files.components`), and the path of an entry of a directory (`Files.join`). -/

namespace SchemaTyping.Files

/-- A component of a path. Empty components and those that only say "here" are left out, but for the
    latter at the start of a path. -/
inductive Component where
  | root
  | here
  | up
  | name (name : String)
  deriving DecidableEq

/-- The components of a path. -/
def components (path : String) : List Component :=
  let pieces := (Text.split '/' path.toList).map String.ofList
  let component (piece : String) : Option Component :=
    if piece.isEmpty || piece == "." then none
    else if piece == ".." then some .up
    else some (.name piece)
  match pieces with
  | "" :: _ :: _ => .root :: pieces.filterMap component
  | "." :: _ => .here :: pieces.filterMap component
  | _ => pieces.filterMap component

/-- Sorts a component: the root before "here" before "up" before names. -/
def Component.rank : Component → Nat
  | .root => 0
  | .here => 1
  | .up => 2
  | .name _ => 3

/-- Is a component before another one, or the same? Names are in the order of their characters. -/
def Component.le : Component → Component → Bool
  | .name a, .name b => a ≤ b
  | a, b => a.rank ≤ b.rank

/-- Are components before others, comparing one by one? -/
def componentsLe : List Component → List Component → Bool
  | [], _ => true
  | _ :: _, [] => false
  | a :: as, b :: bs => if a = b then componentsLe as bs else a.le b

/-- The order of paths. -/
def pathLe (a b : String) : Bool := componentsLe (components a) (components b)

/-- The path of an entry of a directory. -/
def join (directory entry : String) : String :=
  if directory.isEmpty || directory.endsWith "/" then directory ++ entry
  else directory ++ "/" ++ entry

/-- A reversed path without the separators and the "here" components at its end. A path that is nothing
    but the root stays. -/
def trimEnd : List Char → List Char
  | '/' :: rest => if rest.isEmpty then ['/'] else trimEnd rest
  | '.' :: '/' :: rest => if rest.isEmpty then ['/'] else trimEnd rest
  | rest => rest

/-- The path without its last component, if it has one. -/
def parent? (path : String) : Option String :=
  match trimEnd path.toList.reverse with
  | [] => none
  | ['/'] => none
  | reversed => some (String.ofList (trimEnd (reversed.dropWhile (· ≠ '/'))).reverse)

end SchemaTyping.Files
