import SchemaTyping.Regex.CharSet

set_option autoImplicit false

/-! # Regular expressions

The expressions that a pattern for texts may be. What the flags of an expression say about characters is
part of its sets already; marks for positions are all alike, because only the form of an expression is of
interest here, not what it matches. -/

namespace SchemaTyping.Regex

/-- The flags that matter for the form of an expression. -/
structure Flags where
  /-- Letters stand for both cases. -/
  ignoreCase : Bool := false
  /-- The point stands for the end of a line too. -/
  pointIsAll : Bool := false
  /-- A carriage return ends a line. -/
  returnEndsLine : Bool := false
  /-- Classes hold characters of all scripts, not only those of ASCII. -/
  unicode : Bool := true
  /-- Blanks and comments between the parts mean nothing. -/
  spaced : Bool := false
  deriving DecidableEq

/-- A regular expression. -/
inductive Expr where
  /-- The empty text. -/
  | empty
  /-- A change of flags. -/
  | directive
  /-- A position: the start, the end, or an edge of a word. -/
  | position
  /-- One character of a set. The set is written with this many levels of brackets and operators. -/
  | oneOf (set : CharSet) (levels : Nat)
  | group (captures : Bool) (inner : Expr)
  | repetition (inner : Expr) (min : Nat) (max : Option Nat)
  | sequence (parts : List Expr)
  | choice (arms : List Expr)

/-- Parts one after the other. -/
def Expr.inSequence : List Expr → Expr
  | [] => .empty
  | [part] => part
  | parts => .sequence parts

/-- One of several arms. -/
def Expr.anyOf : List Expr → Expr
  | [arm] => arm
  | arms => .choice arms

/-- Why a text is no regular expression. -/
inductive Fault where
  | unclosedGroup
  | unopenedGroup
  | unclosedSet
  | nothingToRepeat
  | badCount
  | badEscape
  | badCodePoint
  | badProperty
  | badRange
  | badGroupName
  | repeatedGroupName
  | badFlags
  | lookAround
  /-- Something in a set that stands for no characters. -/
  | notInSet
  /-- Without the flag for Unicode: something that could match a part of a character. -/
  | notText
  | tooDeep
  | tooLarge
  deriving DecidableEq

end SchemaTyping.Regex
