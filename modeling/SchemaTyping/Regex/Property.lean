import SchemaTyping.Regex.CharSet
import SchemaTyping.Regex.Names

set_option autoImplicit false

/-! # Character properties by name

`Property.set?` finds the set of characters with a property. A name alone is that of a property that
characters have or have not, of a general category, or of a script; otherwise a property and its value are
named. Names are compared loosely (`Property.normal`). -/

namespace SchemaTyping.Regex.Property

/-- The form that names are compared in: small letters of ASCII without blanks, hyphens, underscores, and
    without "is" at the start. The name "isc" keeps its start, for it would be another one without. -/
def normal (name : List Char) : String :=
  let kept (cs : List Char) :=
    (cs.filter fun c => c.toNat < 0x80 && c ≠ ' ' && c ≠ '_' && c ≠ '-').map Char.toLower
  match name with
  | i :: s :: rest =>
    if i.toLower = 'i' ∧ s.toLower = 's' then
      if kept rest = ['c'] then "isc" else String.ofList (kept rest)
    else String.ofList (kept name)
  | _ => String.ofList (kept name)

/-- The set that a table has under a name. -/
def named? (table : Names) (name : String) : Option CharSet :=
  (table.find? fun (names, _) => names.contains name).map fun (_, size) => { named := size }

/-- Short names of general categories that are also short names of properties which are no sets. -/
def categoryFirst : List String := ["cf", "sc", "lc"]

/-- The set for a single name. -/
def alone? (name : String) : Option CharSet :=
  let other := (named? generalCategories name).or (named? scripts name)
  if categoryFirst.contains name then other else (named? binaryProperties name).or other

/-- The set for a property and its value. -/
def ofValue? (property value : String) : Option CharSet :=
  match property with
  | "generalcategory" | "gc" => named? generalCategories value
  | "script" | "sc" | "scriptextensions" | "scx" => named? scripts value
  | "graphemeclusterbreak" | "gcb" => named? graphemeClusterBreaks value
  | "wordbreak" | "wb" => named? wordBreaks value
  | "sentencebreak" | "sb" => named? sentenceBreaks value
  | "age" => named? ages value
  | _ => none

/-- A text cut at the first place where it continues in a given way. -/
def cutAt? (separator : List Char) : List Char → Option (List Char × List Char)
  | [] => none
  | c :: rest =>
    match separator.isPrefixOf? (c :: rest) with
    | some behind => some ([], behind)
    | none => (cutAt? separator rest).map fun (before, behind) => (c :: before, behind)

/-- The set for what stands between the braces: a name, or a property and its value with "not equal",
    a colon or an equals sign between them. -/
def set? (text : List Char) : Option CharSet :=
  match ((cutAt? ['!', '='] text).or (cutAt? [':'] text)).or (cutAt? ['='] text) with
  | some (property, value) => ofValue? (normal property) (normal value)
  | none => alone? (normal text)

end SchemaTyping.Regex.Property
