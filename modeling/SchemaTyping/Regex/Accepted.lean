import SchemaTyping.Regex.Automaton
import SchemaTyping.Regex.Reading

set_option autoImplicit false

/-! # Expressions that can be used

`Regex.read` reads a text as an expression of bounded depth whose automata are not too large. Their size is
counted from the expression (`Expr.size`), and not taken from automata that have been built. -/

namespace SchemaTyping.Regex

/-! ## Depth -/

mutual

/-- The number of levels of an expression. -/
def Expr.depth : Expr → Nat
  | .empty | .directive | .position => 0
  | .oneOf _ levels => levels
  | .group _ inner => 1 + inner.depth
  | .repetition inner _ _ => 1 + inner.depth
  | .sequence parts => 1 + deepest parts
  | .choice arms => 1 + deepest arms

/-- The number of levels of the deepest expression. -/
def deepest : List Expr → Nat
  | [] => 0
  | e :: rest => max e.depth (deepest rest)

end

/-! ## Limits -/

/-- Expressions have at most this many levels. -/
def maxDepth : Nat := 250

/-- Automata have at most this size, in bytes. -/
def maxSize : Nat := 10 <<< 20

/-- Read an expression that can be used. -/
def read (text : String) : Except Fault Expr := do
  let e ← parse text
  if maxDepth < e.depth then throw .tooDeep
  if maxSize < max (e.size .forwards) (e.size .backwards) then throw .tooLarge
  return e

/-- Is the text an expression that can be used? Near `maxSize` the answer is an estimate, for named properties
    have one size wherever they occur and only the letters A to Z have their cases (`CharSet.foldCase`). -/
def isValid (text : String) : Bool := (read text).isOk

end SchemaTyping.Regex
