import SchemaTyping.Json.Basic
import SchemaTyping.Text.Split

set_option autoImplicit false

/-! # Pointers into a JSON value

A pointer is a text of names, each after a slash; the empty text points to the whole value. Inside a name
`~1` stands for a slash and `~0` for a tilde. On a list a name is a position, in plain digits without
needless zeros. -/

namespace SchemaTyping.Json.Pointer

/-- Replace the two characters `~` and `mark` by one character. -/
def unescape (mark char : Char) : List Char → List Char
  | [] => []
  | [c] => [c]
  | a :: b :: rest =>
    if a = '~' ∧ b = mark then char :: unescape mark char rest
    else a :: unescape mark char (b :: rest)

/-- A name with its escapes undone: first the slashes, then the tildes. -/
def name (segment : List Char) : String :=
  String.ofList (unescape '0' '~' (unescape '1' '/' segment))

/-- The names of a pointer. -/
def names? (pointer : String) : Option (List String) :=
  match pointer.toList with
  | [] => some []
  | '/' :: rest => some ((Text.split '/' rest).map name)
  | _ => none

/-- The position that a name denotes. -/
def position? (name : String) : Option Nat :=
  match name.toList with
  | [] => none
  | ['0'] => some 0
  | '0' :: _ => none
  | ds => if ds.all Char.isDigit then some (ds.foldl (fun n c => 10 * n + (c.toNat - '0'.toNat)) 0)
    else none

/-- The part of a value with a name. -/
def child? (name : String) : Json → Option Json
  | .object members => Table.get? name members
  | .list items => do items[(← position? name)]?
  | _ => none

/-- Follow names from a value inwards. -/
def walk? : List String → Json → Option Json
  | [], j => some j
  | n :: rest, j => (child? n j).bind (walk? rest)

/-- The value a pointer selects. -/
def select? (pointer : String) (j : Json) : Option Json :=
  (names? pointer).bind fun names => walk? names j

end SchemaTyping.Json.Pointer
