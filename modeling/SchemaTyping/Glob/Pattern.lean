set_option autoImplicit false

/-! # Glob patterns

A pattern describes names of files: `?` stands for any character, `*` for any number of them, a bracket
for one of a set, and every other character for itself. Two stars, alone between slashes, stand for any
number of directories. `Glob.parse` reads a pattern, `Glob.matchesTokens` decides whether a name has its
form. -/

namespace SchemaTyping.Glob

/-! ## Patterns -/

/-- A part of a character set. -/
inductive Specifier where
  | single (c : Char)
  | range (first last : Char)
  deriving DecidableEq

/-- Is the character in this part of the set? -/
def Specifier.holds (c : Char) : Specifier → Bool
  | .single d => c = d
  | .range first last => first ≤ c && c ≤ last

/-- A part of a pattern. -/
inductive Token where
  | char (c : Char)
  | anyChar
  | anyText
  | anyDirectories
  | oneOf (set : List Specifier)
  | noneOf (set : List Specifier)
  deriving DecidableEq

/-- Is the character one that a token for a single character stands for? -/
def Token.accepts (c : Char) : Token → Bool
  | .char d => c = d
  | .anyChar => true
  | .oneOf set => set.any (·.holds c)
  | .noneOf set => !set.any (·.holds c)
  | .anyText | .anyDirectories => false

/-- A text and all shorter ends of it. -/
def endings : List Char → List (List Char)
  | [] => [[]]
  | c :: rest => (c :: rest) :: endings rest

/-- Does the text have the form of the pattern? -/
def matchesTokens : List Token → List Char → Bool
  | [], text => text.isEmpty
  | .anyText :: rest, text => (endings text).any (matchesTokens rest)
  | .anyDirectories :: rest, text => (endings text).any (matchesTokens rest)
  | token :: rest, c :: text => token.accepts c && matchesTokens rest text
  | _ :: _, [] => false

/-! ## Reading patterns -/

/-- Why a text is no pattern. -/
inductive Malformed where
  | wildcards
  | recursiveWildcards
  | range
  deriving DecidableEq

/-- A fault and the position of the character where it is. -/
structure Fault where
  position : Nat
  reason : Malformed
  deriving DecidableEq

/-- The wording of a fault. -/
def Fault.message (f : Fault) : String :=
  let reason := match f.reason with
    | .wildcards => "wildcards are either regular `*` or recursive `**`"
    | .recursiveWildcards => "recursive wildcards must form a single path component"
    | .range => "invalid range pattern"
  "Pattern syntax error near position " ++ toString f.position ++ ": " ++ reason

/-- The parts of the set between two brackets. -/
def specifiers : List Char → List Specifier
  | a :: '-' :: b :: rest => .range a b :: specifiers rest
  | a :: rest => .single a :: specifiers rest
  | [] => []

/-- A set after its opening bracket: the set and the pattern behind it. The character that comes first is
    in the set, even if it is a closing bracket. -/
def readSet? : List Char → Option (Token × List Char)
  | '!' :: first :: rest =>
    let others := rest.takeWhile (· ≠ ']')
    match rest.dropWhile (· ≠ ']') with
    | [] => none
    | _ :: behind => some (.noneOf (specifiers (first :: others)), behind)
  | '!' :: [] => none
  | first :: rest =>
    let others := rest.takeWhile (· ≠ ']')
    match rest.dropWhile (· ≠ ']') with
    | [] => none
    | _ :: behind => some (.oneOf (specifiers (first :: others)), behind)
  | [] => none

/-- Two stars at a position: they must fill the space between two slashes, the second of which is taken
    with them. -/
def readDirectories (position : Nat) (before : Option Char) (behind : List Char) :
    Except Fault (Token × List Char) :=
  if before = none ∨ before = some '/' then
    match behind with
    | [] => .ok (.anyDirectories, [])
    | c :: rest =>
      if c = '/' then .ok (.anyDirectories, rest)
      else .error ⟨position + 2, .recursiveWildcards⟩
  else .error ⟨position - 1, .recursiveWildcards⟩

/-- Read a pattern from a position on; the first argument is the length of what is left at least. -/
def parseFrom : Nat → Nat → Option Char → List Char → Except Fault (List Token)
  | 0, _, _, _ => .ok []
  | _, _, _, [] => .ok []
  | fuel + 1, position, before, c :: rest => do
    let (token, behind) ←
      if c = '?' then pure (.anyChar, rest)
      else if c = '*' then
        match (rest.takeWhile (· = '*')).length with
        | 0 => pure (.anyText, rest)
        | 1 => readDirectories position before (rest.drop 1)
        | _ => throw ⟨position + 2, .wildcards⟩
      else if c = '[' then
        match readSet? rest with
        | some read => pure read
        | none => throw ⟨position, .range⟩
      else pure (.char c, rest)
    let taken := (c :: rest).take (rest.length + 1 - behind.length)
    let tokens ← parseFrom fuel (position + taken.length) taken.getLast? behind
    return token :: tokens

/-- The parts of a pattern. -/
def parse (pattern : List Char) : Except Fault (List Token) :=
  parseFrom pattern.length 0 none pattern

/-- The text that a pattern stands for, if it stands for only one. -/
def literal? (tokens : List Token) : Option (List Char) :=
  tokens.mapM fun
    | .char c => some c
    | _ => none

/-- Does a text hold characters with a meaning in patterns? -/
def isPattern (text : String) : Bool := text.toList.any fun c => c = '*' || c = '?' || c = '['

end SchemaTyping.Glob
