import SchemaTyping.Binary64.Shortest
import SchemaTyping.Json.Basic

set_option autoImplicit false

/-! # JSON text

`Json.compact` writes a value without spaces. Strings are quoted by `quoted`, which escapes only what
it must. Doubles are written with the fewest digits that read back as the same double. -/

namespace SchemaTyping.Json

/-- A hexadecimal digit below sixteen, in lower case. -/
def hexDigit (n : Nat) : Char := Nat.digitChar n

/-- A character inside quotes. The quote, the backslash and the control characters are escaped, five of
    them by a letter and the others by their code in four hexadecimal digits. -/
def escapeChar (c : Char) : List Char :=
  if c = '"' then ['\\', '"']
  else if c = '\\' then ['\\', '\\']
  else if c = '\x08' then ['\\', 'b']
  else if c = '\x0c' then ['\\', 'f']
  else if c = '\n' then ['\\', 'n']
  else if c = '\r' then ['\\', 'r']
  else if c = '\t' then ['\\', 't']
  else if c.toNat < 0x20 then
    ['\\', 'u', '0', '0', hexDigit (c.toNat / 16), hexDigit (c.toNat % 16)]
  else [c]

/-- A string between quotes. -/
def quotedChars (s : String) : List Char :=
  '"' :: (s.toList.flatMap escapeChar ++ ['"'])

@[inherit_doc quotedChars]
def quoted (s : String) : String := String.ofList (quotedChars s)

/-- Doubles from `10 ^ (plainFrom - 1)` up to below `10 ^ plainTo` are written without an exponent. -/
def plainFrom : Int := -4

@[inherit_doc plainFrom]
def plainTo : Int := 16

/-- A double as JSON: the shortest decimal, a tie going to the even digit. An integral one keeps a zero
    behind the point, and very large and very small ones have an exponent. -/
def realChars : Dyadic → List Char
  | .zero => ['0', '.', '0']
  | .ofOdd n k _ =>
    let d := Binary64.shortest .even n.natAbs (-k)
    let sign := if n < 0 then ['-'] else []
    sign ++
      if plainFrom ≤ d.point ∧ d.point ≤ plainTo then
        if 0 ≤ d.exponent then d.plain ++ ['.', '0'] else d.plain
      else d.scientific

/-- A number as JSON. -/
def Number.chars : Number → List Char
  | .integer i => (toString i).toList
  | .negativeZero => ['-', '0', '.', '0']
  | .real x => realChars x

mutual

/-- A value as JSON without spaces. -/
def compactChars : Json → List Char
  | .null => ['n', 'u', 'l', 'l']
  | .boolean true => ['t', 'r', 'u', 'e']
  | .boolean false => ['f', 'a', 'l', 's', 'e']
  | .number n => n.chars
  | .text s => quotedChars s
  | .list items => '[' :: (compactItems true items ++ [']'])
  | .object members => '\x7b' :: (compactMembers true members ++ ['\x7d'])

/-- The items of a list, with a comma before each but the first. -/
def compactItems (first : Bool) : List Json → List Char
  | [] => []
  | item :: rest =>
    (if first then [] else [',']) ++ compactChars item ++ compactItems false rest

/-- The members of an object, with a comma before each but the first. -/
def compactMembers (first : Bool) : List (String × Json) → List Char
  | [] => []
  | (key, value) :: rest =>
    (if first then [] else [',']) ++ quotedChars key ++ ':' :: compactChars value
      ++ compactMembers false rest

end

@[inherit_doc compactChars]
def compact (j : Json) : String := String.ofList (compactChars j)

end SchemaTyping.Json
