import SchemaTyping.Generate

set_option autoImplicit false

/-! # The grammar of generated files

    File        = [banner] declarations with an empty line between them
    Declaration = export interface N {}
                | export interface N { lines, each a member and a semicolon }
                | export type N = Type;
    Type        = Operand (" | " Operand)*
    Operand     = Primary "[]"*
    Primary     = identifier | JSON string | JSON numeral | "(" Type ")" | "{ " members " }"
    Member      = Key ": " Type
    Key         = (identifier | JSON string) ["?"]

A nonterminal reads a part off the front of a text: `Reads x cs a rest` states that `cs` starts with an
`x` whose structure is `a` and goes on with `rest`. The relations are those of the grammar and do not say
how far to read; that a text can be read in one way only is a theorem. Strings and numerals have the values
that JSON gives them: the content of the one, the double nearest to the other. -/

namespace SchemaTyping.Grammar

/-! ## Structures -/

/-- The structure that the text of a type shows. A name, an object of which nothing is declared and the
    literals `null`, `true` and `false` are all words. -/
inductive Shape where
  | word (name : String)
  /-- A string literal, by its content. -/
  | text (content : String)
  /-- A number literal, by its value. -/
  | numeral (value : Binary64)
  | object (fields : List (Field Shape))
  | array (item : Shape)
  /-- At least two arms. -/
  | alternation (arms : List Shape)

/-- One arm stands for itself, several are an alternation. -/
def Shape.oneOf : List Shape → Shape
  | [arm] => arm
  | arms => .alternation arms

/-- Arrays of arrays, so many levels deep. -/
def Shape.arrays : Nat → Shape → Shape
  | 0, item => item
  | n + 1, item => .array (item.arrays n)

/-- The structure of a declaration. -/
inductive Declared where
  | interface (name : String) (fields : List (Field Shape))
  | synonym (name : String) (type : Shape)

/-! ## Numerals and keys -/

/-- Decimal digits, at least one. -/
def IsDigits (cs : List Char) : Prop := cs ≠ [] ∧ ∀ c ∈ cs, c.isDigit = true

/-- Digits without a needless zero in front. -/
def IsWhole (cs : List Char) : Prop := IsDigits cs ∧ (cs.head? = some '0' → cs = ['0'])

/-- A point and digits, or nothing. -/
def IsFraction (cs : List Char) : Prop := cs = [] ∨ ∃ digits, IsDigits digits ∧ cs = '.' :: digits

/-- A power of ten, or nothing. -/
def IsExponent (cs : List Char) : Prop :=
  cs = [] ∨ ∃ mark sign digits, (mark = 'e' ∨ mark = 'E') ∧ (sign = [] ∨ sign = ['+'] ∨ sign = ['-']) ∧
    IsDigits digits ∧ cs = mark :: (sign ++ digits)

/-- A number as JSON writes it. -/
def IsNumeral (cs : List Char) : Prop :=
  ∃ sign whole fraction exponent, (sign = [] ∨ sign = ['-']) ∧ IsWhole whole ∧ IsFraction fraction ∧
    IsExponent exponent ∧ cs = sign ++ whole ++ fraction ++ exponent

/-- An identifier, or a JSON string. -/
inductive ReadsName : List Char → String → List Char → Prop where
  | bare {cs name rest : List Char} (hname : isIdentifier name = true) (h : cs = name ++ rest) :
      ReadsName cs (String.ofList name) rest
  | quoted {cs content rest : List Char} (h : Json.readText cs = .ok (content, rest)) :
      ReadsName ('"' :: cs) (String.ofList content) rest

/-- A name, with a question mark if the field is optional. -/
inductive ReadsKey : List Char → String → Bool → List Char → Prop where
  | required {cs : List Char} {name : String} {rest : List Char} (h : ReadsName cs name rest) :
      ReadsKey cs name false rest
  | optional {cs : List Char} {name : String} {rest : List Char} (h : ReadsName cs name ('?' :: rest)) :
      ReadsKey cs name true rest

/-! ## Types -/

/-- The nonterminals from which types are made. -/
inductive Nonterminal where
  | primary
  | operand
  /-- The operands between bars. -/
  | arms
  | type
  /-- The members of an object, up to its closing brace. -/
  | members

/-- What the structure of a nonterminal is. -/
def Nonterminal.Structure : Nonterminal → Type
  | .primary | .operand | .type => Shape
  | .arms => List Shape
  | .members => List (Field Shape)

/-- So many pairs of brackets. -/
def brackets : Nat → List Char
  | 0 => []
  | n + 1 => '[' :: ']' :: brackets n

/-- The text starts with the nonterminal and goes on with the rest. -/
inductive Reads : (x : Nonterminal) → List Char → x.Structure → List Char → Prop where
  | word {cs name rest : List Char} (hname : isIdentifier name = true) (h : cs = name ++ rest) :
      Reads .primary cs (Shape.word (String.ofList name)) rest
  | text {cs content rest : List Char} (h : Json.readText cs = .ok (content, rest)) :
      Reads .primary ('"' :: cs) (Shape.text (String.ofList content)) rest
  | numeral {cs digits rest : List Char} {n : Json.Number} (hdigits : IsNumeral digits)
      (hread : Json.ofText (String.ofList digits) = .ok (.number n)) (h : cs = digits ++ rest) :
      Reads .primary cs (Shape.numeral n.toBinary64) rest
  | group {cs : List Char} {t : Shape} {rest : List Char} (h : Reads .type cs t (')' :: rest)) :
      Reads .primary ('(' :: cs) t rest
  | object {cs : List Char} {fields : List (Field Shape)} {rest : List Char}
      (h : Reads .members cs fields rest) :
      Reads .primary ('\x7b' :: ' ' :: cs) (Shape.object fields) rest
  | operand {cs : List Char} {t : Shape} {rest : List Char} (n : Nat)
      (h : Reads .primary cs t (brackets n ++ rest)) : Reads .operand cs (Shape.arrays n t) rest
  | one {cs : List Char} {t : Shape} {rest : List Char} (h : Reads .operand cs t rest) :
      Reads .arms cs [t] rest
  | more {cs cs' : List Char} {t : Shape} {ts : List Shape} {rest : List Char}
      (h : Reads .operand cs t (TypeExpr.bar ++ cs')) (hrest : Reads .arms cs' ts rest) :
      Reads .arms cs (t :: ts) rest
  | type {cs : List Char} {ts : List Shape} {rest : List Char} (h : Reads .arms cs ts rest) :
      Reads .type cs (Shape.oneOf ts) rest
  | lastMember {cs cs' : List Char} {name : String} {optional : Bool} {t : Shape} {rest : List Char}
      (hkey : ReadsKey cs name optional (':' :: ' ' :: cs'))
      (h : Reads .type cs' t (' ' :: '\x7d' :: rest)) : Reads .members cs [⟨name, t, optional⟩] rest
  | member {cs cs' cs'' : List Char} {name : String} {optional : Bool} {t : Shape}
      {fields : List (Field Shape)} {rest : List Char}
      (hkey : ReadsKey cs name optional (':' :: ' ' :: cs'))
      (h : Reads .type cs' t (TypeExpr.semicolon ++ cs'')) (hrest : Reads .members cs'' fields rest) :
      Reads .members cs (⟨name, t, optional⟩ :: fields) rest

/-! ## Declarations -/

/-- The lines of an interface and its closing brace. -/
inductive ReadsLines : List Char → List (Field Shape) → List Char → Prop where
  | close {rest : List Char} : ReadsLines ('\x7d' :: '\n' :: rest) [] rest
  | line {cs cs' cs'' : List Char} {name : String} {optional : Bool} {t : Shape}
      {fields : List (Field Shape)} {rest : List Char}
      (hkey : ReadsKey cs name optional (':' :: ' ' :: cs'))
      (h : Reads .type cs' t (';' :: '\n' :: cs'')) (hrest : ReadsLines cs'' fields rest) :
      ReadsLines (Declaration.indent ++ cs) (⟨name, t, optional⟩ :: fields) rest

/-- The text starts with a declaration and goes on with the rest. -/
inductive ReadsDeclared : List Char → Declared → List Char → Prop where
  | empty {cs name rest : List Char} (hname : isIdentifier name = true)
      (h : cs = "export interface ".toList ++ (name ++ ([' ', '\x7b', '\x7d', '\n'] ++ rest))) :
      ReadsDeclared cs (.interface (String.ofList name) []) rest
  | interface {cs name cs' : List Char} {fields : List (Field Shape)} {rest : List Char}
      (hname : isIdentifier name = true)
      (h : cs = "export interface ".toList ++ (name ++ ([' ', '\x7b', '\n'] ++ cs')))
      (hlines : ReadsLines cs' fields rest) (hfields : fields ≠ []) :
      ReadsDeclared cs (.interface (String.ofList name) fields) rest
  | synonym {cs name cs' : List Char} {t : Shape} {rest : List Char} (hname : isIdentifier name = true)
      (h : cs = "export type ".toList ++ (name ++ (" = ".toList ++ cs')))
      (htype : Reads .type cs' t (';' :: '\n' :: rest)) :
      ReadsDeclared cs (.synonym (String.ofList name) t) rest

/-- The whole text is declarations, at least one, with an empty line between them. -/
inductive ReadsDeclarations : List Char → List Declared → Prop where
  | last {cs : List Char} {d : Declared} (h : ReadsDeclared cs d []) : ReadsDeclarations cs [d]
  | more {cs cs' : List Char} {d : Declared} {ds : List Declared}
      (h : ReadsDeclared cs d ('\n' :: cs')) (hrest : ReadsDeclarations cs' ds) :
      ReadsDeclarations cs (d :: ds)

/-- The whole text is a file, with or without the banner in front of its declarations. -/
inductive ReadsFile : List Char → Bool → List Declared → Prop where
  | empty : ReadsFile [] false []
  | banner {cs : List Char} (h : cs = Generated.banner.toList) : ReadsFile cs true []
  | bare {cs : List Char} {ds : List Declared} (h : ReadsDeclarations cs ds) : ReadsFile cs false ds
  | bannered {cs cs' : List Char} {ds : List Declared} (h : cs = Generated.banner.toList ++ '\n' :: cs')
      (hrest : ReadsDeclarations cs' ds) : ReadsFile cs true ds

end SchemaTyping.Grammar
