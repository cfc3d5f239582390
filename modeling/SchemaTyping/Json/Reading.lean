import SchemaTyping.Binary64.Reading
import SchemaTyping.Json.Problem
import SchemaTyping.Text.Hexadecimal

set_option autoImplicit false

/-! # Reading JSON text

A `Reader` takes a value off the front of a text and leaves the rest. The first fault in text order ends
the reading; while it is handed back, every enclosing value adds its step to the path (`Reader.under`).

The brackets of lists and objects are read once, by `listOf` and `foldMembers`, for whatever stands
between them: `Json.reader` fills them with JSON values of any shape, the readers of records with the
shapes they want. Nesting is bounded: a reader of values carries the number of levels it may still open,
and recursion is on that number. -/

namespace SchemaTyping.Json

/-- A reading step: takes something off the front of a text. -/
abbrev Reader (α : Type) := StateT (List Char) (Except Problem) α

namespace Reader

variable {α : Type}

/-- Refuse the text. -/
def refuse (f : Fault) : Reader α := throw ⟨[], f⟩

/-- The text is not JSON. -/
def fail (m : Malformed) : Reader α := refuse (.malformed m)

/-- Read a part of a value: its problems lie one step deeper. -/
def under (s : Step) (r : Reader α) : Reader α := fun cs => (r cs).mapError (·.under s)

/-- A pure function on the text as a reading step. -/
def scan (f : List Char → Except Malformed (α × List Char)) : Reader α := fun cs =>
  match f cs with
  | .ok r => .ok r
  | .error m => .error ⟨[], .malformed m⟩

/-- The blanks of JSON. -/
def isBlank (c : Char) : Bool := c = ' ' || c = '\n' || c = '\t' || c = '\r'

/-- Drop blanks and show the text behind them, without taking it. -/
def ahead : Reader (List Char) := do
  modify (·.dropWhile isBlank)
  get

end Reader

open Reader

/-! ## Scalars -/

/-- The rest of a word, after its first letter. -/
def readWord : List Char → List Char → Except Malformed (Unit × List Char)
  | [], rest => .ok ((), rest)
  | _ :: _, [] => .error .endInValue
  | w :: ws, c :: cs => if c = w then readWord ws cs else .error .expectedWord

/-- The sixteen bits written by four hexadecimal digits. -/
def hexUnit? (a b c d : Char) : Option Nat := do
  let a ← Text.hexValue? a
  let b ← Text.hexValue? b
  let c ← Text.hexValue? c
  let d ← Text.hexValue? d
  return ((a * 16 + b) * 16 + c) * 16 + d

/-- Why fewer than four characters cannot be four digits: the text ends, or its last characters fill the
    four bytes that the digits would take. -/
def shortUnit (cs : List Char) : Malformed :=
  if cs.foldl (fun n c => n + c.utf8Size) 0 < 4 then .endInText else .invalidEscape

/-- The first sixteen bits of a surrogate pair, and of its second half. -/
def isHighSurrogate (n : Nat) : Bool := 0xD800 ≤ n && n ≤ 0xDBFF

@[inherit_doc isHighSurrogate]
def isLowSurrogate (n : Nat) : Bool := 0xDC00 ≤ n && n ≤ 0xDFFF

/-- The character that a surrogate pair stands for. -/
def pairChar (high low : Nat) : Char :=
  Char.ofNat ((high - 0xD800) * 0x400 + (low - 0xDC00) + 0x10000)

/-- The character of a one-letter escape. -/
def letterEscape? (c : Char) : Option Char :=
  if c = '"' ∨ c = '\\' ∨ c = '/' then some c
  else if c = 'b' then some '\x08'
  else if c = 'f' then some '\x0c'
  else if c = 'n' then some '\n'
  else if c = 'r' then some '\r'
  else if c = 't' then some '\t'
  else none

/-- The characters of a string, after its opening quote and up to the closing one. -/
def readText : List Char → Except Malformed (List Char × List Char)
  | [] => .error .endInText
  | c :: rest =>
    if c = '"' then .ok ([], rest)
    else if c = '\\' then
      match rest with
      | [] => .error .endInText
      | e :: rest =>
        if e = 'u' then
          match rest with
          | h₁ :: h₂ :: h₃ :: h₄ :: rest =>
            match hexUnit? h₁ h₂ h₃ h₄ with
            | none => .error .invalidEscape
            | some unit =>
              if isLowSurrogate unit then .error .loneSurrogate
              else if isHighSurrogate unit then
                match rest with
                | [] => .error .endInText
                | ['\\'] => .error .endInText
                | '\\' :: 'u' :: l₁ :: l₂ :: l₃ :: l₄ :: rest =>
                  match hexUnit? l₁ l₂ l₃ l₄ with
                  | none => .error .invalidEscape
                  | some low =>
                    if isLowSurrogate low then
                      (readText rest).map fun (s, rest) => (pairChar unit low :: s, rest)
                    else .error .loneSurrogate
                | '\\' :: 'u' :: rest => .error (shortUnit rest)
                | _ => .error .brokenPair
              else (readText rest).map fun (s, rest) => (Char.ofNat unit :: s, rest)
          | rest => .error (shortUnit rest)
        else
          match letterEscape? e with
          | none => .error .invalidEscape
          | some c => (readText rest).map fun (s, rest) => (c :: s, rest)
    else if c.toNat < 0x20 then .error .controlCharacter
    else (readText rest).map fun (s, rest) => (c :: s, rest)

/-- The integers that keep their form as numbers: 64 bits, with or without a sign. -/
def keptInteger? (negative : Bool) (magnitude : Nat) : Option Number :=
  if negative then
    if magnitude = 0 then some .negativeZero
    else if magnitude ≤ 1 <<< 63 then some (.integer (-magnitude))
    else none
  else if magnitude < 1 <<< 64 then some (.integer magnitude)
  else none

/-- The number of a numeral that is kept as a double. -/
def realNumber (negative : Bool) (digits : Nat) (exponent : Int) : Except Malformed Number :=
  match Binary64.ofDecimal negative digits exponent with
  | .finite x => .ok (if x = 0 ∧ negative then .negativeZero else .real x)
  | _ => .error .numberOutOfRange

/-- The digits and the sign behind the letter of an exponent. -/
def readExponent (cs : List Char) : Except Malformed (Int × List Char) :=
  let (negative, cs) := match cs with
    | '-' :: rest => (true, rest)
    | '+' :: rest => (false, rest)
    | rest => (false, rest)
  match cs with
  | [] => .error .endInValue
  | c :: _ =>
    if c.isDigit then
      let value : Int := Binary64.digitsValue (cs.takeWhile Char.isDigit)
      .ok (if negative then -value else value, cs.dropWhile Char.isDigit)
    else .error .invalidNumber

/-- The exponent of a numeral, zero if none is written, and its value. -/
def readScaled (negative : Bool) (digits : Nat) (places : Nat) (cs : List Char) :
    Except Malformed (Number × List Char) := do
  let (power, rest) ← match cs with
    | e :: rest => if e = 'e' ∨ e = 'E' then readExponent rest else pure (0, cs)
    | [] => pure (0, cs)
  let n ← realNumber negative digits (power - places)
  return (n, rest)

/-- What follows the whole part of a numeral: a fraction, an exponent, or nothing. -/
def readTail (negative : Bool) (whole : List Char) (cs : List Char) :
    Except Malformed (Number × List Char) :=
  match cs with
  | '.' :: rest =>
    let fraction := rest.takeWhile Char.isDigit
    if fraction.isEmpty then .error (if rest.isEmpty then .endInValue else .invalidNumber)
    else readScaled negative (Binary64.digitsValue (whole ++ fraction)) fraction.length
      (rest.dropWhile Char.isDigit)
  | _ =>
    let value := Binary64.digitsValue whole
    let plain := match cs with
      | c :: _ => c != 'e' && c != 'E'
      | [] => true
    match plain, keptInteger? negative value with
    | true, some n => .ok (n, cs)
    | _, _ => readScaled negative value 0 cs

/-- A numeral without its sign. The whole part has no needless zero in front. -/
def readNumber (negative : Bool) (cs : List Char) : Except Malformed (Number × List Char) :=
  match cs with
  | [] => .error .endInValue
  | c :: rest =>
    if c = '0' then
      match rest with
      | d :: _ => if d.isDigit then .error .invalidNumber else readTail negative [c] rest
      | [] => readTail negative [c] rest
    else if c.isDigit then
      readTail negative (cs.takeWhile Char.isDigit) (cs.dropWhile Char.isDigit)
    else .error .invalidNumber

/-! ## Lists and objects -/

/-- After an opening bracket or an item: is there another item? A comma before it is taken. -/
def nextItem (first : Bool) : Reader Bool := do
  match ← ahead with
  | [] => fail .endInList
  | c :: rest =>
    if c = ']' then return false
    else if first then return true
    else if c = ',' then
      set rest
      match ← ahead with
      | [] => fail .endInValue
      | c :: _ => if c = ']' then fail .trailingComma else return true
    else fail .expectedListEnd

/-- The key that starts here. -/
def readKey (starting : Reader (Option String)) : Reader (Option String) := do
  match ← ahead with
  | '"' :: rest =>
    set rest
    let s ← scan readText
    return some (String.ofList s)
  | _ => starting

/-- After an opening brace or a member: the key of the next member, if there is one. A comma before it is
    taken. -/
def nextKey (first : Bool) : Reader (Option String) := under .unnamed do
  match ← ahead with
  | [] => fail .endInObject
  | c :: rest =>
    if c = '\x7d' then return none
    else if first then readKey (fail .keyNotText)
    else if c = ',' then
      set rest
      readKey do
        match ← ahead with
        | [] => fail .endInValue
        | c :: _ => if c = '\x7d' then fail .trailingComma else fail .keyNotText
    else fail .expectedObjectEnd

/-- The colon between a key and its value. -/
def colon : Reader Unit := do
  match ← ahead with
  | [] => fail .endInObject
  | c :: rest => if c = ':' then set rest else fail .expectedColon

/-- The items of a list from position `i` on, up to its closing bracket. Every round but the last takes
    characters off the text, so the first argument is a bound when it starts as the length of the
    text. -/
def itemsFrom {α : Type} (item : Reader α) : Nat → Nat → Reader (List α)
  | 0, _ => fail .endInList
  | fuel + 1, i => do
    if ← nextItem (i = 0) then
      let x ← under (.index i) item
      let xs ← itemsFrom item fuel (i + 1)
      return x :: xs
    else
      modify (·.drop 1)
      return []

/-- The items of a list, after its opening bracket. -/
def listOf {α : Type} (item : Reader α) : Reader (List α) := do
  let cs ← get
  itemsFrom item (cs.length + 1) 0

/-- Take the members of an object one by one up to its closing brace; `member` reads from the colon on.
    The fuel is as for `itemsFrom`. -/
def membersFrom {σ : Type} (member : σ → String → Reader σ) : Nat → Bool → σ → Reader σ
  | 0, _, _ => fail .endInObject
  | fuel + 1, first, s => do
    match ← nextKey first with
    | some key =>
      let s ← member s key
      membersFrom member fuel false s
    | none =>
      modify (·.drop 1)
      return s

/-- Take the members of an object one by one, after its opening brace. -/
def foldMembers {σ : Type} (start : σ) (member : σ → String → Reader σ) : Reader σ := do
  let cs ← get
  membersFrom member (cs.length + 1) true start

/-- The members of an object whose values are all read alike. -/
def tableOf {α : Type} (value : Reader α) : Reader (Table α) :=
  foldMembers [] fun table key => do
    colon
    let v ← under (.key key) value
    return table.insert key v

/-! ## Values -/

/-- A value; `nested` reads the parts of a list or an object, if they are allowed. -/
def readerWith (nested : Option (Reader Json)) : Reader Json := do
  match ← ahead with
  | [] => fail .endInValue
  | c :: rest =>
    if c = 'n' then
      set rest
      scan (readWord ['u', 'l', 'l'])
      return .null
    else if c = 't' then
      set rest
      scan (readWord ['r', 'u', 'e'])
      return .boolean true
    else if c = 'f' then
      set rest
      scan (readWord ['a', 'l', 's', 'e'])
      return .boolean false
    else if c = '-' then
      set rest
      return .number (← scan (readNumber true))
    else if c.isDigit then
      return .number (← scan (readNumber false))
    else if c = '"' then
      set rest
      return .text (String.ofList (← scan readText))
    else if c = '[' then
      match nested with
      | none => fail .tooDeep
      | some item =>
        set rest
        return .list (← listOf item)
    else if c = '\x7b' then
      match nested with
      | none => fail .tooDeep
      | some value =>
        set rest
        return .object (← tableOf value)
    else fail .expectedValue

/-- A value in which at most so many lists and objects stand inside each other. -/
def reader : Nat → Reader Json
  | 0 => readerWith none
  | levels + 1 => readerWith (some (reader levels))

/-- How many lists and objects may stand inside each other in a text. -/
def maxLevels : Nat := 127

/-- A whole text as one value with at most so many levels. -/
def ofTextWithin (levels : Nat) (text : String) : Except Problem Json := do
  let (value, rest) ← (reader levels).run text.toList
  if (rest.dropWhile isBlank).isEmpty then .ok value
  else .error ⟨[], .malformed .trailingCharacters⟩

/-- A whole text as one value. -/
def ofText (text : String) : Except Problem Json := ofTextWithin maxLevels text

end SchemaTyping.Json
