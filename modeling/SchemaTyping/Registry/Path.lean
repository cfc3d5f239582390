set_option autoImplicit false

/-! # Field paths

The fields of a definition are declared under flat paths whose segments are separated by points:
`address.street` lies below `address`. This file takes paths apart and puts them together again. The
empty path is the root, above all declared fields. -/

namespace SchemaTyping.Path

/-- The path of a field below another path. Below the root it is the bare key. -/
def join (parent key : String) : String :=
  if parent.isEmpty then key else String.ofList (parent.toList ++ '.' :: key.toList)

/-- What a path adds to a parent it lies below: the characters after the separating point. -/
def below? (parent path : String) : Option (List Char) :=
  if parent.isEmpty then some path.toList
  else match parent.toList.isPrefixOf? path.toList with
    | some ('.' :: rest) => some rest
    | _ => none

/-- The characters up to the first point. -/
def firstSegment (cs : List Char) : String := String.ofList (cs.takeWhile (· ≠ '.'))

/-- A path cut at its last point: the part before it, which is the root if there is no point, and the
    last segment. -/
def parentAndKey (path : String) : String × String :=
  let reversed := path.toList.reverse
  let key := String.ofList (reversed.takeWhile (· ≠ '.')).reverse
  (String.ofList ((reversed.dropWhile (· ≠ '.')).drop 1).reverse, key)

end SchemaTyping.Path
