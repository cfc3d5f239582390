import SchemaTyping.Text.Unprintable
import SchemaTyping.Text.GraphemeExtend

set_option autoImplicit false

/-! # Strings in messages

`Text.escaped` puts a string between quotes so that a message shows every character of it: characters
without a visible form, and those that would attach to the character before them, stand as their code
point in braces. -/

namespace SchemaTyping.Text

/-- The code point of a character in hexadecimal, in braces. -/
def codePoint (c : Char) : List Char :=
  '\\' :: 'u' :: '\x7b' :: (Nat.toDigits 16 c.toNat ++ ['\x7d'])

/-- One character of a quoted string. -/
def escapedChar (c : Char) : List Char :=
  if c = '\x00' then ['\\', '0']
  else if c = '\t' then ['\\', 't']
  else if c = '\r' then ['\\', 'r']
  else if c = '\n' then ['\\', 'n']
  else if c = '\\' then ['\\', '\\']
  else if c = '"' then ['\\', '"']
  else if graphemeExtend.has c || unprintable.has c then codePoint c
  else [c]

/-- A string between quotes, every character visible. -/
def escaped (s : String) : String :=
  String.ofList ('"' :: (s.toList.flatMap escapedChar ++ ['"']))

end SchemaTyping.Text
