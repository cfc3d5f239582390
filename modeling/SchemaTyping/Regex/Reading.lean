import SchemaTyping.Regex.Basic
import SchemaTyping.Regex.Property
import SchemaTyping.Text.Alphabetic
import SchemaTyping.Text.Blank
import SchemaTyping.Text.Hexadecimal
import SchemaTyping.Text.Numeric

set_option autoImplicit false

/-! # Reading regular expressions

`Regex.parse` reads a text as a regular expression. Texts are matched as sequences of characters, so
without the flag for Unicode everything is refused that could match a part of a character. References to
groups and conditions on the surroundings of a match are no part of the expressions.

Every step of a loop and every level of brackets takes at least one character, so the number of characters
bounds the recursion. -/

namespace SchemaTyping.Regex

open Text (Ranges)

/-- What a reader has in front of it, the flags in force, and the names of the groups so far. -/
structure State where
  rest : List Char
  flags : Flags := {}
  names : List String := []

/-- A step in reading an expression. -/
abbrev Reader := StateT State (Except Fault)

/-! ## Characters -/

/-- Is the character a blank? -/
def isBlank (c : Char) : Bool := Text.blank.has c

/-- A text without the blanks and comments at its start. A comment ends with its line. -/
def dropBlanks (inComment : Bool) : List Char → List Char
  | [] => []
  | c :: rest =>
    if inComment then dropBlanks (c ≠ '\n') rest
    else if isBlank c then dropBlanks false rest
    else if c = '#' then dropBlanks true rest
    else c :: rest

/-- The next character. -/
def next? : Reader (Option Char) := do return (← get).rest.head?

/-- Pass a character. -/
def skip : Reader Unit := modify fun s => { s with rest := s.rest.tail }

/-- Pass blanks and comments, if they mean nothing. -/
def skipBlanks : Reader Unit :=
  modify fun s => if s.flags.spaced then { s with rest := dropBlanks false s.rest } else s

/-- Pass a character and what means nothing behind it. -/
def advance : Reader Unit := do
  skip
  skipBlanks

/-- Pass a text, if it is next. -/
def pass? (text : List Char) : Reader Bool := do
  match text.isPrefixOf? (← get).rest with
  | some behind =>
    modify fun s => { s with rest := behind }
    return true
  | none => return false

/-- Refuse the end of the text. -/
def expectMore (fault : Fault) : Reader Unit := do
  if (← next?).isNone then throw fault

/-- The characters up to the first that does not satisfy a condition; what means nothing is passed behind
    each. The first argument bounds their number. -/
def takeSpaced (p : Char → Bool) : Nat → Reader (List Char)
  | 0 => return []
  | n + 1 => do
    match ← next? with
    | none => return []
    | some c =>
      if p c then do
        advance
        return c :: (← takeSpaced p n)
      else return []

/-- The characters up to the first that does not satisfy a condition. -/
def takeAll (p : Char → Bool) : Reader (List Char) := do
  takeSpaced p (← get).rest.length

/-! ## Escapes -/

/-- The smallest thing that an expression is made of. -/
inductive Atom where
  /-- A character; it may be written as a byte. -/
  | char (c : Char) (isByte : Bool)
  | set (s : CharSet)
  | position

/-- The character that hexadecimal digits stand for. -/
def charOfHex (digits : List Char) : Reader Char := do
  match digits.mapM Text.hexValue? with
  | none => throw .badCodePoint
  | some values =>
    let n := values.foldl (fun n d => 16 * n + d) 0
    if digits.isEmpty || !(n.isValidChar : Bool) then throw .badCodePoint
    return Char.ofNat n

/-- A fixed number of characters. -/
def takeFixed : Nat → Reader (List Char)
  | 0 => return []
  | n + 1 => do
    match ← next? with
    | none => throw .badEscape
    | some c =>
      advance
      return c :: (← takeFixed n)

/-- What stands between braces. -/
def takeBraced : Reader (List Char) := do
  advance
  let content ← takeAll (· ≠ '}')
  expectMore .badEscape
  return content

/-- A character by its code point, with as many digits as its letter says or in braces. -/
def readHex (digits : Nat) : Reader Atom := do
  advance
  if (← next?) = some '{' then
    let content ← takeBraced
    advance
    return .char (← charOfHex content) false
  else
    return .char (← charOfHex (← takeFixed digits)) (digits = 2)

/-- A property, named by one letter or in braces. -/
def readProperty (negated : Bool) : Reader Atom := do
  advance
  expectMore .badEscape
  let name ←
    if (← next?) = some '{' then do
      let content ← takeBraced
      skip
      pure content
    else takeFixed 1
  if !(← get).flags.unicode then throw .notText
  match Property.set? name with
  | none => throw .badProperty
  | some s => return .set (if negated then s.complement else s)

/-- Digits, blanks and the characters of words, as they are understood without Unicode and with it. -/
inductive CommonClass where
  | digit
  | space
  | word

/-- The characters of a common class. -/
def CommonClass.set (unicode : Bool) : CommonClass → CharSet
  | .digit => if unicode then { named := 4640 } else .ofRanges [(0x30, 0x39)]
  | .space => if unicode then .ofRanges Text.blank else .ofRanges [(0x9, 0xd), (0x20, 0x20)]
  | .word =>
    if unicode then { named := 48168 }
    else .ofRanges [(0x30, 0x39), (0x41, 0x5a), (0x5f, 0x5f), (0x61, 0x7a)]

/-- A common class or its complement. -/
def readCommon (kind : CommonClass) (negated : Bool) : Reader Atom := do
  let unicode := (← get).flags.unicode
  skip
  if negated && !unicode then throw .notText
  return .set (if negated then (kind.set unicode).complement else kind.set unicode)

/-- The characters of a name between the braces behind the mark of an edge of a word. -/
def isEdgeChar (c : Char) : Bool := c.isAlpha || c = '-'

/-- The edges of words that have names. -/
def edges : List String := ["start", "end", "start-half", "end-half"]

/-- What may follow the mark of an edge of a word: a name in braces. Other braces are left alone. -/
def readEdge : Reader Unit := do
  let before ← get
  if (← next?) = some '{' then
    advance
    match ← next? with
    | none => throw .badEscape
    | some c =>
      if isEdgeChar c then
        let name ← takeAll isEdgeChar
        if (← next?) ≠ some '}' || !edges.contains (String.ofList name) then throw .badEscape
        skip
      else set before

/-- The control characters that have a letter. -/
def controlChar? : Char → Option Char
  | 'a' => some '\x07'
  | 'f' => some '\x0c'
  | 't' => some '\t'
  | 'n' => some '\n'
  | 'r' => some '\r'
  | 'v' => some '\x0b'
  | _ => none

/-- Characters that stand for themselves behind a backslash. -/
def standsForItself (c : Char) : Bool :=
  c.toNat < 0x80 && !c.isAlphanum && c ≠ '<' && c ≠ '>'

/-- What a backslash and the characters behind it stand for. -/
def readEscape : Reader Atom := do
  skip
  match ← next? with
  | none => throw .badEscape
  | some c =>
    match c with
    | 'x' => readHex 2
    | 'u' => readHex 4
    | 'U' => readHex 8
    | 'p' => readProperty false
    | 'P' => readProperty true
    | 'd' => readCommon .digit false
    | 'D' => readCommon .digit true
    | 's' => readCommon .space false
    | 'S' => readCommon .space true
    | 'w' => readCommon .word false
    | 'W' => readCommon .word true
    | 'b' => do
      skip
      readEdge
      return .position
    | 'A' | 'z' | 'B' | '<' | '>' => do
      skip
      return .position
    | _ => do
      skip
      match controlChar? c with
      | some d => return .char d false
      | none => if standsForItself c then return .char c false else throw .badEscape

/-! ## Sets in brackets -/

/-- A set and the number of levels it is written with. -/
structure Part where
  set : CharSet
  levels : Nat := 0

/-- The operators between sets. -/
inductive SetOp where
  | intersection
  | difference
  | symmetricDifference

/-- Apply an operator. -/
def SetOp.apply : SetOp → CharSet → CharSet → CharSet
  | .intersection => CharSet.intersection
  | .difference => CharSet.difference
  | .symmetricDifference => CharSet.symmetricDifference

/-- A set that is being read: what stands before the last operator, and the items behind it. -/
structure OpenSet where
  left : Option (SetOp × Part) := none
  items : List Part := []

/-- The set with one more item. -/
def OpenSet.push (s : OpenSet) (item : Part) : OpenSet := { s with items := item :: s.items }

/-- All of the set. Several items are a level of their own, and so is an operator. -/
def OpenSet.close (s : OpenSet) : Part :=
  let right : Part := match s.items with
    | [] => { set := {} }
    | [item] => item
    | items =>
      { set := items.foldr (fun item set => set.union item.set) {}
        levels := 1 + (items.map (·.levels)).foldl max 0 }
  match s.left with
  | none => right
  | some (op, left) =>
    { set := op.apply left.set right.set, levels := 1 + max left.levels right.levels }

/-- The set after an operator behind it. -/
def OpenSet.operator (s : OpenSet) (op : SetOp) : OpenSet := { left := some (op, s.close) }

/-- The classes of ASCII characters that have names. -/
def asciiClass? : String → Option Ranges
  | "alnum" => some [(0x30, 0x39), (0x41, 0x5a), (0x61, 0x7a)]
  | "alpha" => some [(0x41, 0x5a), (0x61, 0x7a)]
  | "ascii" => some [(0x0, 0x7f)]
  | "blank" => some [(0x9, 0x9), (0x20, 0x20)]
  | "cntrl" => some [(0x0, 0x1f), (0x7f, 0x7f)]
  | "digit" => some [(0x30, 0x39)]
  | "graph" => some [(0x21, 0x7e)]
  | "lower" => some [(0x61, 0x7a)]
  | "print" => some [(0x20, 0x7e)]
  | "punct" => some [(0x21, 0x2f), (0x3a, 0x40), (0x5b, 0x60), (0x7b, 0x7e)]
  | "space" => some [(0x9, 0xd), (0x20, 0x20)]
  | "upper" => some [(0x41, 0x5a)]
  | "word" => some [(0x30, 0x39), (0x41, 0x5a), (0x5f, 0x5f), (0x61, 0x7a)]
  | "xdigit" => some [(0x30, 0x39), (0x41, 0x46), (0x61, 0x66)]
  | _ => none

/-- The set with both cases of its letters, if the flags say so. -/
def withCases (s : CharSet) : Reader CharSet := do
  let flags := (← get).flags
  return if flags.ignoreCase then s.foldCase flags.unicode else s

/-- The complement of a set, if it is negated. -/
def negate (negated : Bool) (s : CharSet) : Reader CharSet := do
  if !negated then return s
  if !(← get).flags.unicode then throw .notText
  return s.complement

/-- A class of ASCII characters, named between a bracket with a colon and a colon with a bracket. What does
    not have this form is left alone: it is a set in brackets. -/
def readAsciiClass? : Reader (Option Part) := do
  match (← get).rest with
  | '[' :: ':' :: text =>
    let (negated, text) := match text with
      | '^' :: text => (true, text)
      | text => (false, text)
    let name := text.takeWhile (· ≠ ':')
    match text.dropWhile (· ≠ ':') with
    | ':' :: ']' :: behind =>
      match asciiClass? (String.ofList name) with
      | none => return none
      | some ranges =>
        modify fun s => { s with rest := behind }
        return some { set := ← negate negated (← withCases (.ofRanges ranges)) }
    | _ => return none
  | _ => return none

/-- An item of a set that may be the end of a range. -/
def readSetAtom : Reader Atom := do
  match ← next? with
  | some '\\' => readEscape
  | some c => do
    skip
    return .char c false
  | none => throw .unclosedSet

/-- Without the flag for Unicode, sets hold only characters of ASCII. -/
def checkChar (c : Char) : Reader Unit := do
  if 0x7f < c.toNat && !(← get).flags.unicode then throw .notText

/-- The first character that may have a meaning: blanks and the sign of one comment are passed, if they
    mean nothing. -/
def nextMeaning? (spaced : Bool) (text : List Char) : Option Char :=
  if spaced then
    match text.dropWhile isBlank with
    | '#' :: rest => (rest.dropWhile isBlank).head?
    | rest => rest.head?
  else text.head?

/-- A character, a class or a range. A hyphen before the closing bracket or another hyphen makes no
    range. -/
def readRange : Reader Part := do
  let first ← readSetAtom
  skipBlanks
  expectMore .unclosedSet
  let s ← get
  let isRange := match s.rest with
    | '-' :: behind =>
      nextMeaning? s.flags.spaced behind ≠ some ']' && nextMeaning? s.flags.spaced behind ≠ some '-'
    | _ => false
  if isRange then
    advance
    expectMore .unclosedSet
    match first, ← readSetAtom with
    | .char lo _, .char hi _ =>
      checkChar lo
      checkChar hi
      if hi < lo then throw .badRange
      return { set := ← withCases (.ofRanges [(lo.toNat, hi.toNat)]) }
    | _, _ => throw .badRange
  else
    match first with
    | .char c _ =>
      checkChar c
      return { set := ← withCases (.single c) }
    | .set s => return { set := s }
    | .position => throw .notInSet

/-- The hyphens at the start of a set stand for themselves. -/
def readHyphens : Nat → OpenSet → Reader OpenSet
  | 0, s => return s
  | n + 1, s => do
    if (← next?) = some '-' then
      advance
      expectMore .unclosedSet
      readHyphens n (s.push { set := .single '-' })
    else return s

/-- The start of a set: the bracket, the sign for its complement, and the characters that stand for
    themselves only there. -/
def readSetStart : Reader (Bool × OpenSet) := do
  advance
  expectMore .unclosedSet
  let negated := (← next?) = some '^'
  if negated then
    advance
    expectMore .unclosedSet
  let s ← readHyphens (← get).rest.length {}
  if s.items.isEmpty && (← next?) = some ']' then
    advance
    expectMore .unclosedSet
    return (negated, s.push { set := .single ']' })
  return (negated, s)

mutual

/-- A set in brackets. -/
def readSet : Nat → Reader Part
  | 0 => throw .unclosedSet
  | fuel + 1 => do
    let (negated, start) ← readSetStart
    let part ← readItems fuel start
    return { set := ← negate negated part.set, levels := 1 + part.levels }

/-- The items of a set and its closing bracket. -/
def readItems : Nat → OpenSet → Reader Part
  | 0, _ => throw .unclosedSet
  | fuel + 1, s => do
    skipBlanks
    match (← get).rest with
    | [] => throw .unclosedSet
    | ']' :: _ => do
      skip
      return s.close
    | '[' :: _ => do
      match ← readAsciiClass? with
      | some part => readItems fuel (s.push part)
      | none => readItems fuel (s.push (← readSet fuel))
    | '&' :: '&' :: _ => do
      skip
      skip
      readItems fuel (s.operator .intersection)
    | '-' :: '-' :: _ => do
      skip
      skip
      readItems fuel (s.operator .difference)
    | '~' :: '~' :: _ => do
      skip
      skip
      readItems fuel (s.operator .symmetricDifference)
    | _ => readItems fuel (s.push (← readRange))

end

/-! ## Repetition -/

/-- The parts read so far, the last first, with the last repeated. -/
def repeatLast (parts : List Expr) (min : Nat) (max : Option Nat) : Reader (List Expr) :=
  match parts with
  | [] | .directive :: _ => throw .nothingToRepeat
  | part :: rest => return .repetition part min max :: rest

/-- A sign for repetition, and the sign behind it that prefers few repetitions. -/
def readSign (parts : List Expr) (min : Nat) (max : Option Nat) : Reader (List Expr) := do
  let parts ← repeatLast parts min max
  skip
  if (← next?) = some '?' then skip
  return parts

/-- A number of repetitions of at most 32 bits with blanks around it, if there is one. -/
def readCount? : Reader (Option Nat) := do
  modify fun s => { s with rest := s.rest.dropWhile isBlank }
  let digits ← takeAll Char.isDigit
  let _ ← takeAll isBlank
  if digits.isEmpty then return none
  let n := digits.foldl (fun n c => 10 * n + (c.toNat - 0x30)) 0
  if 1 <<< 32 ≤ n then throw .badCount
  return some n

/-- The least and the most repetitions between braces. -/
def readCounts : Reader (Nat × Option Nat) := do
  advance
  let some min ← readCount? | throw .badCount
  if (← next?) = some ',' then
    advance
    if (← next?) = some '}' then return (min, none)
    let some max ← readCount? | throw .badCount
    if max < min then throw .badCount
    return (min, some max)
  return (min, some min)

/-- Repetitions that are counted. -/
def readCounted (parts : List Expr) : Reader (List Expr) := do
  let (min, max) ← readCounts
  if (← next?) ≠ some '}' then throw .badCount
  let parts ← repeatLast parts min max
  advance
  if (← next?) = some '?' then skip
  return parts

/-! ## Groups -/

/-- May the character be part of the name of a group? -/
def isNameChar (isFirst : Bool) (c : Char) : Bool :=
  c = '_' || Text.alphabetic.has c ||
    (!isFirst && (c = '.' || c = '[' || c = ']' || Text.numeric.has c))

/-- The name of a group and the sign behind it. No other group has the name. -/
def readName : Reader Unit := do
  let s ← get
  let name := s.rest.takeWhile (· ≠ '>')
  match name, s.rest.dropWhile (· ≠ '>') with
  | first :: others, _ :: behind =>
    if !isNameChar true first || !others.all (isNameChar false) then throw .badGroupName
    let text := String.ofList name
    if s.names.contains text then throw .repeatedGroupName
    set { s with rest := behind, names := text :: s.names }
  | _, _ => throw .badGroupName

/-- Switch the flag with a letter. -/
def Flags.switch (on : Bool) (flags : Flags) : Char → Flags
  | 'i' => { flags with ignoreCase := on }
  | 's' => { flags with pointIsAll := on }
  | 'R' => { flags with returnEndsLine := on }
  | 'u' => { flags with unicode := on }
  | 'x' => { flags with spaced := on }
  | _ => flags

/-- Are these the letters of flags, each at most once, with at most one hyphen that does not come last? -/
def areFlags (letters : List Char) : Bool :=
  letters.all ("imsRUux-".toList.contains ·) && letters.eraseDups = letters
    && letters.getLast? ≠ some '-'

/-- Letters of flags: those before the hyphen are switched on, those behind it off. The flags are not in
    force yet. -/
def readFlags : Reader (List Char × Flags) := do
  let s ← get
  let letters := s.rest.takeWhile fun c => c ≠ ':' && c ≠ ')'
  if !areFlags letters then throw .badFlags
  set { s with rest := s.rest.drop letters.length }
  let on := (letters.takeWhile (· ≠ '-')).foldl (Flags.switch true) s.flags
  return (letters, (letters.dropWhile (· ≠ '-')).foldl (Flags.switch false) on)

/-- What the start of a group asks for. -/
inductive Opening where
  /-- Only flags, no group. -/
  | flags (flags : Flags)
  | group (captures : Bool) (flags : Flags)

/-- The signs for conditions on what comes before or behind. -/
def lookArounds : List (List Char) := [['?', '='], ['?', '!'], ['?', '<', '='], ['?', '<', '!']]

/-- The start of a group. -/
def readOpening : Reader Opening := do
  advance
  let s ← get
  if lookArounds.any (·.isPrefixOf s.rest) then throw .lookAround
  if (← pass? ['?', 'P', '<']) || (← pass? ['?', '<']) then
    readName
    return .group true s.flags
  if ← pass? ['?'] then
    let (letters, flags) ← readFlags
    match ← next? with
    | some ':' => do
      skip
      return .group false flags
    | some _ => do
      skip
      if letters.isEmpty then throw .nothingToRepeat
      return .flags flags
    | none => throw .unclosedGroup
  return .group true s.flags

/-! ## Expressions -/

/-- The point: every character but the ends of lines. -/
def point (flags : Flags) : CharSet :=
  if flags.pointIsAll then CharSet.complement {}
  else if flags.returnEndsLine then (CharSet.ofRanges [(0xa, 0xa), (0xd, 0xd)]).complement
  else (CharSet.single '\n').complement

/-- The smallest part of an expression at this place. -/
def readAtom : Reader Expr := do
  let flags := (← get).flags
  match ← next? with
  | none => return .empty
  | some '.' => do
    skip
    if !flags.unicode then throw .notText
    return .oneOf (point flags) 0
  | some '^' | some '$' => do
    skip
    return .position
  | _ =>
    match ← readSetAtom with
    | .char c isByte =>
      if isByte && 0x7f < c.toNat && !flags.unicode then throw .notText
      return .oneOf (← withCases (.single c)) 0
    | .set s => return .oneOf s 0
    | .position => return .position

mutual

/-- The arms of a choice up to the end or a closing parenthesis: the arms before this one and the parts of
    this one, both with the last first. -/
def readArms : Nat → List Expr → List Expr → Reader Expr
  | 0, _, _ => throw .unclosedGroup
  | fuel + 1, arms, parts => do
    skipBlanks
    match ← next? with
    | none | some ')' => return .anyOf (Expr.inSequence parts.reverse :: arms).reverse
    | some '|' => do
      skip
      readArms fuel (Expr.inSequence parts.reverse :: arms) []
    | some '(' => do readArms fuel arms ((← readGroup fuel) :: parts)
    | some '[' => do
      let part ← readSet (2 * (← get).rest.length)
      readArms fuel arms (.oneOf part.set part.levels :: parts)
    | some '?' => do readArms fuel arms (← readSign parts 0 (some 1))
    | some '*' => do readArms fuel arms (← readSign parts 0 none)
    | some '+' => do readArms fuel arms (← readSign parts 1 none)
    | some '\x7b' => do readArms fuel arms (← readCounted parts)
    | _ => do readArms fuel arms ((← readAtom) :: parts)

/-- A group, or flags for what follows. The flags of a group end with it. -/
def readGroup : Nat → Reader Expr
  | 0 => throw .unclosedGroup
  | fuel + 1 => do
    let outside := (← get).flags
    match ← readOpening with
    | .flags flags => do
      modify fun s => { s with flags }
      return .directive
    | .group captures flags => do
      modify fun s => { s with flags }
      let inner ← readArms fuel [] []
      if (← next?).isNone then throw .unclosedGroup
      skip
      modify fun s => { s with flags := outside }
      return .group captures inner

end

/-- The expression that a text is. -/
def parse (text : String) : Except Fault Expr := do
  let chars := text.toList
  let (expr, s) ← (readArms (2 * chars.length + 1) [] []).run { rest := chars }
  if s.rest.isEmpty then return expr else throw .unopenedGroup

end SchemaTyping.Regex
