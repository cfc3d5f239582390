import SchemaTyping.Document.Error
import SchemaTyping.Json.Pointer
import SchemaTyping.Json.Record

set_option autoImplicit false

/-! # Schema documents

A `Document` holds two tables of bodies: schemas, which get a name in the registry, and further instances,
which only the document itself and later ones can refer to. The bodies stay JSON values here; what they
mean is decided when the document is loaded.

A document is read from a text or from a value that is part of a larger text. Both accept a list of the
two tables instead of an object. -/

namespace SchemaTyping

/-- The bodies of a document. -/
structure Document where
  instances : Table Json := []
  schemas : Table Json := []

namespace Document

open Json (Reader Problem)

/-- The members of a document, in order. -/
def fieldNames : List String := ["instances", "schemas"]

/-- How many levels a body can have: it stands two levels deep itself. -/
def bodyLevels : Nat := Json.maxLevels - 2

/-- A document with one of its tables replaced. -/
def withField (d : Document) (field : String) (table : Table Json) : Document :=
  if field = "instances" then { d with instances := table } else { d with schemas := table }

/-! ## From a text -/

/-- A table of bodies. -/
def bodiesReader : Reader (Table Json) := do
  match ← Json.Reader.ahead with
  | '\x7b' :: rest =>
    set rest
    Json.tableOf (Json.reader bodyLevels)
  | _ => Json.mismatch "a map"

/-- The document a text starts with. -/
def reader : Reader Document :=
  Json.recordReader "struct RawDocument" fieldNames {} fun d field => do
    let table ← bodiesReader
    return d.withField field table

/-- The document a text starts with. What follows it is not looked at. -/
def ofText (text : String) : Except DocumentError Document :=
  match reader.run text.toList with
  | .ok (d, _) => .ok d
  | .error p => .error (.parse p)

/-! ## From a value -/

/-- A table of bodies. -/
def bodiesOfJson : Json → Except Problem (Table Json)
  | .object members => .ok members
  | value => .error ⟨[], .mismatch (.ofJson value) "a map"⟩

/-- The document that a value is. -/
def ofJson (j : Json) : Except DocumentError Document :=
  let read := Json.recordOfValue "struct RawDocument" fieldNames {} (fun d field value => do
    let table ← bodiesOfJson value
    return Document.withField d field table) j
  read.mapError .parse

/-- The part of a larger value that a pointer selects. -/
def select (pointer : String) (j : Json) : Except DocumentError Json :=
  match Json.Pointer.select? pointer j with
  | some part => .ok part
  | none => .error (.pointer pointer)

end Document

end SchemaTyping
