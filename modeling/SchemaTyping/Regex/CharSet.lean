import SchemaTyping.Text.Ranges

set_option autoImplicit false

/-! # Sets of characters in an expression

A `CharSet` lists its characters as ranges in ascending order with gaps between them. The characters of a
named property are not listed: of these the set knows only how large their automata are. So union,
complement and intersection are exact for sets without named properties, and for the others an estimate
that loses no part of the size. -/

namespace SchemaTyping.Regex

open Text (Ranges)

/-! ## Ranges in order -/

/-- The last code point. -/
def lastCodePoint : Nat := 0x10ffff

/-- Ranges in order with one more. -/
def insertRange (r : Nat × Nat) : Ranges → Ranges
  | [] => [r]
  | s :: rest =>
    if r.2 + 1 < s.1 then r :: s :: rest
    else if s.2 + 1 < r.1 then s :: insertRange r rest
    else insertRange (min r.1 s.1, max r.2 s.2) rest

/-- The code points from one on that are in none of the ranges. -/
def gapsFrom (start : Nat) : Ranges → Ranges
  | [] => if start ≤ lastCodePoint then [(start, lastCodePoint)] else []
  | (lo, hi) :: rest =>
    if start < lo then (start, lo - 1) :: gapsFrom (hi + 1) rest else gapsFrom (hi + 1) rest

/-- The part of a range between two code points, moved by a distance. -/
def shifted (lo hi : Nat) (move : Nat → Nat) (r : Nat × Nat) : Ranges :=
  let first := max lo r.1
  let last := min hi r.2
  if first ≤ last then [(move first, move last)] else []

/-! ## Sets -/

/-- A set of characters. -/
structure CharSet where
  ranges : Ranges := []
  /-- The size of the automata of the named properties in the set. -/
  named : Nat := 0
  deriving DecidableEq

namespace CharSet

/-- The set of the characters in ranges. -/
def ofRanges (ranges : Ranges) : CharSet := { ranges := ranges.foldr insertRange [] }

/-- The set of one character. -/
def single (c : Char) : CharSet := { ranges := [(c.toNat, c.toNat)] }

/-- Are all characters of the set listed? -/
def isListed (s : CharSet) : Bool := s.named = 0

/-- The character of a set with one character. -/
def single? (s : CharSet) : Option Nat :=
  match s.ranges with
  | [(lo, hi)] => if s.isListed && lo = hi then some lo else none
  | _ => none

/-- The characters of either set. -/
def union (s t : CharSet) : CharSet where
  ranges := s.ranges.foldr insertRange t.ranges
  named := s.named + t.named

/-- The characters that are not in the set. -/
def complement (s : CharSet) : CharSet :=
  if s.isListed then { ranges := gapsFrom 0 s.ranges } else s

/-- The characters of both sets. -/
def intersection (s t : CharSet) : CharSet :=
  if s.isListed && t.isListed then (s.complement.union t.complement).complement else s.union t

/-- The characters of the first set that are not in the second. -/
def difference (s t : CharSet) : CharSet :=
  if s.isListed && t.isListed then s.intersection t.complement else s.union t

/-- The characters of exactly one of the sets. -/
def symmetricDifference (s t : CharSet) : CharSet :=
  if s.isListed && t.isListed then (s.difference t).union (t.difference s) else s.union t

/-- Is the character with this code point listed? -/
def lists (s : CharSet) (n : Nat) : Bool := s.ranges.any fun r => r.1 ≤ n && n ≤ r.2

/-- The letters of ASCII that have a case outside of it, with all their cases: of `k` the Kelvin sign is one,
    of `s` the long `s`. -/
def widerCases : List (List Nat) := [[0x4b, 0x6b, 0x212a], [0x53, 0x73, 0x17f]]

/-- The set with the letters A to Z in all their cases, if it has them in one. Cases outside of ASCII count
    with Unicode only. The letters of other alphabets stay as they are, so a set with such letters may come
    out smaller than it is; nothing but the size of its automata depends on that. -/
def foldCase (unicode : Bool) (s : CharSet) : CharSet :=
  let small := s.ranges.flatMap (shifted 0x41 0x5a (· + 0x20))
  let large := s.ranges.flatMap (shifted 0x61 0x7a (· - 0x20))
  let wider := if unicode then (widerCases.filter (·.any s.lists)).flatten.map fun n => (n, n) else []
  { s with ranges := (small ++ large ++ wider).foldr insertRange s.ranges }

end CharSet

end SchemaTyping.Regex
