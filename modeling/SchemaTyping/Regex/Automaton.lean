import SchemaTyping.Regex.Basic

set_option autoImplicit false

/-! # The size of automata

An expression becomes an automaton on the bytes of UTF-8, in two forms: one reads texts forwards and marks
where groups start and end, one reads them backwards and needs no groups. `Expr.size` says how many bytes
an automaton takes, without building it.

A set of characters is first cut into ranges whose characters have encodings of one shape
(`byteSequences`): every byte varies independently of the others. -/

namespace SchemaTyping.Regex

open Text (Ranges)

/-! ## Ranges of characters as ranges of bytes -/

/-- The bytes of a code point in UTF-8. -/
def utf8 (n : Nat) : List Nat :=
  if n < 0x80 then [n]
  else if n < 0x800 then [0xc0 + n / 0x40, 0x80 + n % 0x40]
  else if n < 0x10000 then [0xe0 + n / 0x1000, 0x80 + n / 0x40 % 0x40, 0x80 + n % 0x40]
  else [0xf0 + n / 0x40000, 0x80 + n / 0x1000 % 0x40, 0x80 + n / 0x40 % 0x40, 0x80 + n % 0x40]

/-- The last code points whose encodings have one, two and three bytes, and those around the code points
    that are no characters. -/
def shapeEnds : List Nat := [0x7f, 0x7ff, 0xd7ff, 0xdfff, 0xffff]

/-- The last code point of the first part of a range that has to be cut, if it has to be. -/
def cut? (lo hi : Nat) : Option Nat :=
  match shapeEnds.find? fun m => lo ≤ m && m < hi with
  | some m => some m
  | none =>
    if hi < 0x80 then none
    else [0x40, 0x1000, 0x40000].findSome? fun m =>
      if lo / m = hi / m then none
      else if lo % m ≠ 0 then some (lo / m * m + (m - 1))
      else if hi % m ≠ m - 1 then some (hi / m * m - 1)
      else none

/-- The ranges of bytes at each place of the encodings in a range. The first argument bounds the number of
    cuts one within another; there are never more than two for each byte and one for each shape. -/
def byteSequences : Nat → Nat × Nat → List Ranges
  | 0, _ => []
  | fuel + 1, (lo, hi) =>
    match cut? lo hi with
    | some m => byteSequences fuel (lo, m) ++ byteSequences fuel (m + 1, hi)
    | none => if 0xd800 ≤ lo ∧ hi ≤ 0xdfff then [] else [(utf8 lo).zip (utf8 hi)]

/-- The sequences of all ranges of a set. -/
def CharSet.byteSequences (s : CharSet) : List Ranges := s.ranges.flatMap (Regex.byteSequences 32)

/-! ## Sizes of sets -/

/-- In which direction an automaton reads. -/
inductive Direction where
  | forwards
  | backwards
  deriving DecidableEq

/-- The size of a state. -/
def stateSize : Nat := 32

/-- What a state with several successors takes for each of them. -/
def edgeSize : Nat := 4

/-- What a state with several ranges of bytes takes for each of them. -/
def rangeSize : Nat := 8

/-- The beginnings of a sequence, the whole of it among them. -/
def beginnings (s : Ranges) : List Ranges := (List.range s.length).map fun n => s.take (n + 1)

/-- The ends of a sequence after its first range. -/
def properEnds (s : Ranges) : List Ranges := (List.range (s.length - 1)).map fun n => s.drop (n + 1)

/-- The states that distinct parts of sequences need: forwards they share their ends, and backwards their
    beginnings. -/
def sequencesSize (direction : Direction) (sequences : List Ranges) : Nat :=
  match direction with
  | .forwards =>
    2 * stateSize + rangeSize * sequences.length
      + (stateSize + rangeSize) * (sequences.flatMap properEnds).eraseDups.length
  | .backwards =>
    2 * stateSize + edgeSize * sequences.length
      + stateSize * (sequences.flatMap beginnings).eraseDups.length

/-- The size of the automaton for one character of a set. -/
def CharSet.size (direction : Direction) (s : CharSet) : Nat :=
  match s.single? with
  | some n => stateSize * (utf8 n).length
  | none =>
    let listed :=
      if s.ranges.isEmpty then 0
      else if s.ranges.all (·.2 < 0x80) then 2 * stateSize + rangeSize * s.ranges.length
      else sequencesSize direction s.byteSequences
    max stateSize (listed + s.named)

/-! ## Sizes of expressions -/

/-- The most repetitions that make a difference, if what is repeated takes no characters. -/
def atMostOne (min : Nat) (max : Option Nat) : Nat × Option Nat :=
  (Nat.min min 1, some (match max with
    | some n => Nat.min n 1
    | none => 1))

mutual

/-- Does the expression match only the empty text? -/
def Expr.takesNothing : Expr → Bool
  | .empty | .directive | .position => true
  | .oneOf _ _ => false
  | .group _ inner => inner.takesNothing
  | .repetition inner _ max => inner.takesNothing || max = some 0
  | .sequence parts => allTakeNothing parts
  | .choice arms => allTakeNothing arms

/-- Do the expressions all match only the empty text? -/
def allTakeNothing : List Expr → Bool
  | [] => true
  | e :: rest => e.takesNothing && allTakeNothing rest

end

mutual

/-- May the expression match the empty text? -/
def Expr.mayTakeNothing : Expr → Bool
  | .empty | .directive | .position => true
  | .oneOf s _ => s.ranges.isEmpty && s.named = 0
  | .group _ inner => inner.mayTakeNothing
  | .repetition inner min _ => inner.mayTakeNothing || min = 0
  | .sequence parts => allMayTakeNothing parts
  | .choice arms => someMayTakeNothing arms

/-- May the expressions all match the empty text? -/
def allMayTakeNothing : List Expr → Bool
  | [] => true
  | e :: rest => e.mayTakeNothing && allMayTakeNothing rest

/-- May one of the expressions match the empty text? -/
def someMayTakeNothing : List Expr → Bool
  | [] => false
  | e :: rest => e.mayTakeNothing || someMayTakeNothing rest

end

/-- The set that arms choose from, if each is one character. -/
def unionOfArms : List Expr → Option CharSet
  | [] => some {}
  | .oneOf s _ :: rest => (unionOfArms rest).map s.union
  | _ :: _ => none

/-- The size of repetitions of what has a size: as often as needed, then in a loop or as often as
    possible. -/
def repeatedSize (size : Nat) (mayTakeNothing : Bool) : Nat → Option Nat → Nat
  | 0, some 1 => 2 * (stateSize + edgeSize) + size
  | 0, none =>
    if mayTakeNothing then 3 * stateSize + 4 * edgeSize + size
    else stateSize + 2 * edgeSize + size
  | min, none => min * size + stateSize + 2 * edgeSize
  | min, some max =>
    if min = max then min * size
    else Nat.max stateSize (min * size) + stateSize
      + (max - min) * (stateSize + 2 * edgeSize + size)

mutual

/-- The size of an expression as a part of a sequence: what is empty takes nothing there. -/
def Expr.partSize (direction : Direction) : Expr → Nat
  | .empty | .directive => 0
  | .position => stateSize
  | .oneOf s _ => s.size direction
  | .group captures inner =>
    let size := inner.partSize direction
    if captures then
      (if direction = .forwards then 2 * stateSize else 0) + max stateSize size
    else size
  | .repetition inner min max =>
    let size := inner.partSize direction
    let (min, max) := if inner.takesNothing then atMostOne min max else (min, max)
    if max = some 0 then 0
    else if min = 1 ∧ max = some 1 then size
    else repeatedSize (Nat.max stateSize size) inner.mayTakeNothing min max
  | .sequence parts => partSizes direction parts
  | .choice arms =>
    match unionOfArms arms with
    | some s => s.size direction
    | none => 2 * stateSize + armSizes direction arms

/-- The size of parts one after the other. -/
def partSizes (direction : Direction) : List Expr → Nat
  | [] => 0
  | e :: rest => e.partSize direction + partSizes direction rest

/-- The size of arms. -/
def armSizes (direction : Direction) : List Expr → Nat
  | [] => 0
  | e :: rest => max stateSize (e.partSize direction) + edgeSize + armSizes direction rest

end

/-- What is added to an expression: a loop in front of it that passes over what is before a match, and a
    state for success; forwards also the marks for the match as a whole. -/
def frameSize : Direction → Nat
  | .forwards => 6 * stateSize + 2 * edgeSize + rangeSize
  | .backwards => 4 * stateSize + 2 * edgeSize + rangeSize

/-- The size of the automaton for an expression. -/
def Expr.size (direction : Direction) (e : Expr) : Nat :=
  max stateSize (e.partSize direction) + frameSize direction

end SchemaTyping.Regex
