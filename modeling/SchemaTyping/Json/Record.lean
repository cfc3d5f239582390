import SchemaTyping.Json.Reading

set_option autoImplicit false

/-! # Reading records

Readers for values of a known shape: strings, truth values, counts, choices and records. They read the
text directly, so that the first fault in text order is the one reported, whether the text is no JSON
there or has another shape than the one wanted.

A record is an object whose members are known by name, each at most once, or a list of the same values in
a fixed order; members at the end of the list may be left out. -/

namespace SchemaTyping.Json

open Reader

variable {α σ : Type}

/-- Refuse the value that starts here for its kind. It is read first if it is a scalar. -/
def mismatch (wanted : String) : Reader α := do
  match ← ahead with
  | '[' :: _ => refuse (.mismatch .list wanted)
  | '\x7b' :: _ => refuse (.mismatch .object wanted)
  | _ =>
    let value ← readerWith none
    refuse (.mismatch (.ofJson value) wanted)

/-- A string. -/
def stringReader : Reader String := do
  match ← ahead with
  | '"' :: rest =>
    set rest
    return String.ofList (← scan readText)
  | _ => mismatch "a string"

/-- A truth value. -/
def boolReader : Reader Bool := do
  match ← ahead with
  | 't' :: rest =>
    set rest
    scan (readWord ['r', 'u', 'e'])
    return true
  | 'f' :: rest =>
    set rest
    scan (readWord ['a', 'l', 's', 'e'])
    return false
  | _ => mismatch "a boolean"

/-- A natural number of at most 64 bits. -/
def countReader : Reader Nat := do
  match ← ahead with
  | [] => fail .endInValue
  | c :: _ =>
    if c = '-' || c.isDigit then
      match ← readerWith none with
      | .number (.integer i) =>
        if 0 ≤ i then return i.toNat else refuse (.outside (.integer i) "usize")
      | value => refuse (.mismatch (.ofJson value) "usize")
    else mismatch "usize"

/-- The choice with a name. -/
def choose (choices : Table α) (name : String) : Reader α :=
  match choices.get? name with
  | some choice => return choice
  | none => refuse (.unknownVariant name choices.names)

/-- A choice by name: a string, or an object with the name as its only key and null as its value. -/
def choiceReader (choices : Table α) : Reader α := do
  match ← ahead with
  | [] => fail .endInValue
  | '"' :: _ =>
    let name ← stringReader
    choose choices name
  | '\x7b' :: rest =>
    set rest
    let name ← match ← ahead with
      | '"' :: _ => stringReader
      | _ => mismatch "variant identifier"
    let choice ← choose choices name
    colon
    under (.key name) do
      match ← ahead with
      | 'n' :: rest =>
        set rest
        scan (readWord ['u', 'l', 'l'])
      | _ => mismatch "unit"
    match ← ahead with
    | [] => fail .endInObject
    | c :: rest => if c = '\x7d' then set rest else fail .expectedValue
    return choice
  | _ => fail .expectedValue

/-- One member of a record; the state is the record so far with the names already met. -/
def recordMember (names : List String) (field : σ → String → Reader σ) :
    σ × List String → String → Reader (σ × List String)
  | (s, seen), key => do
    if key ∉ names then under (.key key) (refuse (.unknownField key names))
    else if key ∈ seen then refuse (.duplicateField key)
    else
      colon
      let s ← under (.key key) (field s key)
      return (s, key :: seen)

/-- The end of a list that may hold no further item. -/
def endList : Reader Unit := do
  match ← ahead with
  | [] => fail .endInList
  | c :: rest =>
    if c = ']' then set rest
    else if c = ',' then
      match rest.dropWhile isBlank with
      | ']' :: _ => fail .trailingComma
      | _ => fail .trailingCharacters
    else fail .trailingCharacters

/-- The members of a record in their order, from the named ones on. -/
def recordItems (field : σ → String → Reader σ) : List String → Nat → σ → Reader σ
  | [], _, s => do
    endList
    return s
  | name :: names, i, s => do
    if ← nextItem (i = 0) then
      let s ← under (.index i) (field s name)
      recordItems field names (i + 1) s
    else
      modify (·.drop 1)
      return s

/-- A record with these members. `field` reads the value of a member into the record. -/
def recordReader (wanted : String) (names : List String) (start : σ)
    (field : σ → String → Reader σ) : Reader σ := do
  match ← ahead with
  | '\x7b' :: rest =>
    set rest
    let (s, _) ← foldMembers (start, []) (recordMember names field)
    return s
  | '[' :: rest =>
    set rest
    recordItems field names 0 start
  | _ => mismatch wanted

/-! ## The same from a value

A value that has been read already can only have another shape than the one wanted. -/

/-- One member of a record that is a value, as `recordMember`. -/
def valueMember (names : List String) (field : σ → String → Json → Except Problem σ) :
    σ × List String → String × Json → Except Problem (σ × List String)
  | (s, seen), (key, value) =>
    if key ∉ names then .error ⟨[.key key], .unknownField key names⟩
    else if key ∈ seen then .error ⟨[], .duplicateField key⟩
    else do
      let s ← (field s key value).mapError (·.under (.key key))
      return (s, key :: seen)

/-- The members of a record in their order, from the items at position `i` on. -/
def valueItems (field : σ → String → Json → Except Problem σ) :
    List String → Nat → List Json → σ → Except Problem σ
  | _, _, [], s => .ok s
  | [], i, item :: rest, _ => .error ⟨[], .tooManyItems (i + (item :: rest).length)⟩
  | name :: names, i, item :: rest, s => do
    let s ← (field s name item).mapError (·.under (.index i))
    valueItems field names (i + 1) rest s

/-- A record from a value. -/
def recordOfValue (wanted : String) (names : List String) (start : σ)
    (field : σ → String → Json → Except Problem σ) : Json → Except Problem σ
  | .object members => do
    let (s, _) ← members.foldlM (valueMember names field) (start, [])
    return s
  | .list items => valueItems field names 0 items start
  | value => .error ⟨[], .mismatch (.ofJson value) wanted⟩

end SchemaTyping.Json
