import SchemaTyping.Proofs.Grammar.Basic

set_option autoImplicit false

/-! # The grammar is unambiguous

A nonterminal can be read in several ways only as far as it can be read to several places, an identifier
for instance to any of its letters. What follows it in a file settles the place: `Ends x rest` says that
`rest` cannot go on with the nonterminal `x`, and below it a part is read in one way only
(`Reads.unique`, by induction on the derivation). -/

namespace SchemaTyping.Grammar

/-! ## Words and numerals -/

/-- A character that a numeral can contain. -/
def isNumeralPart (c : Char) : Bool :=
  c.isDigit || c = '-' || c = '+' || c = '.' || c = 'e' || c = 'E'

/-- Neither an identifier nor a numeral goes on here. -/
def Delimited (rest : List Char) : Prop :=
  ∀ c, rest.head? = some c → isIdentifierPart c = false ∧ isNumeralPart c = false

theorem delimited_cons {c : Char} {rest : List Char} (hpart : isIdentifierPart c = false)
    (hnumeral : isNumeralPart c = false) : Delimited (c :: rest) := by
  intro c' h
  cases h
  exact ⟨hpart, hnumeral⟩

/-- Two runs of characters of one kind are equal if neither can go on. -/
theorem append_unique {p : Char → Bool} {a a' rest rest' : List Char} (h : a ++ rest = a' ++ rest')
    (ha : ∀ c ∈ a, p c = true) (ha' : ∀ c ∈ a', p c = true)
    (hrest : ∀ c, rest.head? = some c → p c = false)
    (hrest' : ∀ c, rest'.head? = some c → p c = false) : a = a' ∧ rest = rest' := by
  induction a generalizing a' with
  | nil =>
      cases a' with
      | nil => exact ⟨rfl, h⟩
      | cons c a' =>
          have := hrest c (by rw [show rest = c :: (a' ++ rest') from h]; rfl)
          rw [ha' c List.mem_cons_self] at this
          cases this
  | cons c a ih =>
      cases a' with
      | nil =>
          have := hrest' c (by rw [show rest' = c :: (a ++ rest) from h.symm]; rfl)
          rw [ha c List.mem_cons_self] at this
          cases this
      | cons c' a' =>
          rw [List.cons_append, List.cons_append, List.cons_eq_cons] at h
          obtain ⟨rfl, h⟩ := h
          obtain ⟨rfl, hrest⟩ := ih h (fun c hc => ha c (List.mem_cons_of_mem _ hc))
            (fun c hc => ha' c (List.mem_cons_of_mem _ hc))
          exact ⟨rfl, hrest⟩

theorem isIdentifierPart_of_start {c : Char} (h : isIdentifierStart c = true) :
    isIdentifierPart c = true := by
  simp only [isIdentifierStart, isIdentifierPart, Char.isAlphanum, Bool.or_eq_true] at h ⊢
  rcases h with (h | h) | h
  · exact Or.inl (Or.inl (Or.inl h))
  · exact Or.inl (Or.inr h)
  · exact Or.inr h

theorem parts_of_isIdentifier {name : List Char} (h : isIdentifier name = true) :
    ∀ c ∈ name, isIdentifierPart c = true := by
  cases name with
  | nil => cases h
  | cons c rest =>
      obtain ⟨hc, hrest⟩ := Bool.and_eq_true_iff.1 h
      intro c' hc'
      rcases List.mem_cons.1 hc' with rfl | hc'
      · exact isIdentifierPart_of_start hc
      · exact List.all_eq_true.1 hrest c' hc'

theorem start_of_isIdentifier {name rest cs : List Char} {c : Char} (hname : isIdentifier name = true)
    (h : c :: cs = name ++ rest) : isIdentifierStart c = true := by
  cases name with
  | nil => cases hname
  | cons c' name =>
      obtain ⟨rfl, -⟩ := List.cons_eq_cons.1 h
      exact (Bool.and_eq_true_iff.1 hname).1

theorem start_of_isNumeral {digits rest cs : List Char} {c : Char} (hdigits : IsNumeral digits)
    (h : c :: cs = digits ++ rest) : c.isDigit = true ∨ c = '-' := by
  obtain ⟨sign, whole, fraction, exponent, hsign, hwhole, -, -, rfl⟩ := hdigits
  rcases hsign with rfl | rfl
  · obtain ⟨⟨hne, hall⟩, -⟩ := hwhole
    cases whole with
    | nil => exact absurd rfl hne
    | cons d whole =>
        obtain ⟨rfl, -⟩ := List.cons_eq_cons.1 h
        exact Or.inl (hall c List.mem_cons_self)
  · exact Or.inr (List.cons_eq_cons.1 h).1

theorem parts_of_isNumeral {digits : List Char} (h : IsNumeral digits) :
    ∀ c ∈ digits, isNumeralPart c = true := by
  have hdigit : ∀ {ds : List Char}, IsDigits ds → ∀ c ∈ ds, isNumeralPart c = true := by
    intro ds hds c hc
    simp [isNumeralPart, hds.2 c hc]
  obtain ⟨sign, whole, fraction, exponent, hsign, hwhole, hfraction, hexponent, rfl⟩ := h
  simp only [List.mem_append]
  rintro c (((hc | hc) | hc) | hc)
  · rcases hsign with rfl | rfl <;> simp_all [isNumeralPart]
  · exact hdigit hwhole.1 c hc
  · rcases hfraction with rfl | ⟨ds, hds, rfl⟩
    · cases hc
    · rcases List.mem_cons.1 hc with rfl | hc
      · rfl
      · exact hdigit hds c hc
  · rcases hexponent with rfl | ⟨mark, sign, ds, hmark, hsign, hds, rfl⟩
    · cases hc
    · rcases List.mem_cons.1 hc with rfl | hc
      · rcases hmark with rfl | rfl <;> rfl
      · rcases List.mem_append.1 hc with hc | hc
        · rcases hsign with rfl | rfl | rfl <;> simp_all [isNumeralPart]
        · exact hdigit hds c hc

/-- No word starts like a numeral. -/
theorem isIdentifierStart_eq_false {c : Char} (h : c.isDigit = true ∨ c = '-') :
    isIdentifierStart c = false := by
  refine Bool.eq_false_iff.2 fun hstart => ?_
  rcases h with h | rfl
  · unfold isIdentifierStart Char.isAlpha Char.isUpper Char.isLower at hstart
    unfold Char.isDigit at h
    simp only [Bool.or_eq_true, Bool.and_eq_true, decide_eq_true_eq, UInt32.le_iff_toNat_le,
      ge_iff_le] at h hstart
    have hupper : 'A'.val.toNat = 65 := rfl
    have hlower : 'a'.val.toNat = 97 := rfl
    have hnine : '9'.val.toNat = 57 := rfl
    rcases hstart with ((hstart | hstart) | rfl) | rfl
    · omega
    · omega
    · exact absurd h (by decide)
    · exact absurd h (by decide)
  · cases hstart

theorem word_ne_numeral {name digits rest rest' : List Char} (hname : isIdentifier name = true)
    (hdigits : IsNumeral digits) (h : name ++ rest = digits ++ rest') : False := by
  cases name with
  | nil => cases hname
  | cons c name =>
      have hstart := isIdentifierStart_eq_false (start_of_isNumeral hdigits h)
      rw [start_of_isIdentifier hname (List.append_nil (c :: name)).symm] at hstart
      cases hstart

/-! ## Names and keys -/

theorem ReadsName.unique {cs rest rest' : List Char} {name name' : String}
    (h : ReadsName cs name rest) (h' : ReadsName cs name' rest')
    (hrest : ∀ c, rest.head? = some c → isIdentifierPart c = false)
    (hrest' : ∀ c, rest'.head? = some c → isIdentifierPart c = false) :
    name = name' ∧ rest = rest' := by
  cases h with
  | bare hname hcs =>
      cases h' with
      | bare hname' hcs' =>
          obtain ⟨rfl, hrest⟩ := append_unique (hcs.symm.trans hcs') (parts_of_isIdentifier hname)
            (parts_of_isIdentifier hname') hrest hrest'
          exact ⟨rfl, hrest⟩
      | quoted hread' => exact absurd (start_of_isIdentifier hname hcs) (by decide)
  | quoted hread =>
      cases h' with
      | bare hname' hcs' => exact absurd (start_of_isIdentifier hname' hcs') (by decide)
      | quoted hread' =>
          cases hread.symm.trans hread'
          exact ⟨rfl, rfl⟩

/-- A key is followed by a colon, which belongs to no name. -/
theorem ReadsKey.unique {cs rest rest' : List Char} {name name' : String} {optional optional' : Bool}
    (h : ReadsKey cs name optional (':' :: rest)) (h' : ReadsKey cs name' optional' (':' :: rest')) :
    name = name' ∧ optional = optional' ∧ rest = rest' := by
  have hcolon : ∀ (tail : List Char) c, (':' :: tail).head? = some c → isIdentifierPart c = false := by
    intro tail c hc
    cases hc
    rfl
  have hmark : ∀ (tail : List Char) c, ('?' :: tail).head? = some c → isIdentifierPart c = false := by
    intro tail c hc
    cases hc
    rfl
  cases h with
  | required h =>
      cases h' with
      | required h' =>
          obtain ⟨rfl, hrest⟩ := h.unique h' (hcolon _) (hcolon _)
          cases hrest
          exact ⟨rfl, rfl, rfl⟩
      | optional h' => cases (h.unique h' (hcolon _) (hmark _)).2
  | optional h =>
      cases h' with
      | required h' => cases (h.unique h' (hmark _) (hcolon _)).2
      | optional h' =>
          obtain ⟨rfl, hrest⟩ := h.unique h' (hmark _) (hmark _)
          cases hrest
          exact ⟨rfl, rfl, rfl⟩

/-! ## Types -/

/-- The nonterminal does not go on here. Members end with a brace of their own. -/
def Ends : Nonterminal → List Char → Prop
  | .primary, rest => Delimited rest
  | .operand, rest => Delimited rest ∧ rest.head? ≠ some '['
  | .arms, rest | .type, rest =>
    Delimited rest ∧ rest.head? ≠ some '[' ∧ ∀ tail, rest ≠ ' ' :: '|' :: tail
  | .members, _ => True

theorem ends_operand_bar (cs : List Char) : Ends .operand (TypeExpr.bar ++ cs) :=
  ⟨delimited_cons rfl rfl, by simp [TypeExpr.bar]⟩

theorem ends_type_group (cs : List Char) : Ends .type (')' :: cs) :=
  ⟨delimited_cons rfl rfl, by simp, by simp⟩

theorem ends_type_brace (cs : List Char) : Ends .type (' ' :: '\x7d' :: cs) :=
  ⟨delimited_cons rfl rfl, by simp, by simp⟩

theorem ends_type_semicolon (cs : List Char) : Ends .type (';' :: cs) :=
  ⟨delimited_cons rfl rfl, by simp, by simp⟩

theorem brackets_append_unique {n n' : Nat} {rest rest' : List Char}
    (h : brackets n ++ rest = brackets n' ++ rest') (hrest : rest.head? ≠ some '[')
    (hrest' : rest'.head? ≠ some '[') : n = n' ∧ rest = rest' := by
  induction n generalizing n' with
  | zero =>
      cases n' with
      | zero => exact ⟨rfl, h⟩
      | succ n' => exact absurd (by rw [show rest = brackets (n' + 1) ++ rest' from h]; rfl) hrest
  | succ n ih =>
      cases n' with
      | zero => exact absurd (by rw [show rest' = brackets (n + 1) ++ rest from h.symm]; rfl) hrest'
      | succ n' =>
          simp only [brackets, List.cons_append, List.cons_eq_cons, true_and] at h
          obtain ⟨rfl, hrest⟩ := ih h
          exact ⟨rfl, hrest⟩

theorem delimited_brackets {n : Nat} {rest : List Char} (h : Delimited rest) :
    Delimited (brackets n ++ rest) := by
  cases n with
  | zero => exact h
  | succ n => exact delimited_cons rfl rfl

/-- **A part of a type is read in one way only** by all derivations that read to a place where it
    ends. -/
theorem Reads.unique {x : Nonterminal} {cs rest : List Char} {a : x.Structure} (h : Reads x cs a rest) :
    ∀ {b : x.Structure} {rest' : List Char}, Reads x cs b rest' → Ends x rest → Ends x rest' →
      a = b ∧ rest = rest' := by
  -- the first character excludes the other primaries; how many operands, brackets and members there
  -- are is settled by what follows each of them
  induction h with
  | word hname hcs =>
      intro b rest' h' hends hends'
      cases h' with
      | word hname' hcs' =>
          obtain ⟨rfl, hrest⟩ := append_unique (hcs.symm.trans hcs') (parts_of_isIdentifier hname)
            (parts_of_isIdentifier hname') (fun c hc => (hends c hc).1) fun c hc => (hends' c hc).1
          exact ⟨rfl, hrest⟩
      | numeral hdigits' _ hcs' => exact (word_ne_numeral hname hdigits' (hcs.symm.trans hcs')).elim
      | text _ => exact absurd (start_of_isIdentifier hname hcs) (by decide)
      | group _ => exact absurd (start_of_isIdentifier hname hcs) (by decide)
      | object _ => exact absurd (start_of_isIdentifier hname hcs) (by decide)
  | text hread =>
      intro b rest' h' _ _
      cases h' with
      | word hname' hcs' => exact absurd (start_of_isIdentifier hname' hcs') (by decide)
      | numeral hdigits' _ hcs' => exact absurd (start_of_isNumeral hdigits' hcs') (by decide)
      | text hread' =>
          cases hread.symm.trans hread'
          exact ⟨rfl, rfl⟩
  | numeral hdigits hread hcs =>
      intro b rest' h' hends hends'
      cases h' with
      | word hname' hcs' => exact (word_ne_numeral hname' hdigits (hcs'.symm.trans hcs)).elim
      | numeral hdigits' hread' hcs' =>
          obtain ⟨rfl, hrest⟩ := append_unique (hcs.symm.trans hcs') (parts_of_isNumeral hdigits)
            (parts_of_isNumeral hdigits') (fun c hc => (hends c hc).2) fun c hc => (hends' c hc).2
          cases hread.symm.trans hread'
          exact ⟨rfl, hrest⟩
      | text _ => exact absurd (start_of_isNumeral hdigits hcs) (by decide)
      | group _ => exact absurd (start_of_isNumeral hdigits hcs) (by decide)
      | object _ => exact absurd (start_of_isNumeral hdigits hcs) (by decide)
  | group h ih =>
      intro b rest' h' _ _
      cases h' with
      | word hname' hcs' => exact absurd (start_of_isIdentifier hname' hcs') (by decide)
      | numeral hdigits' _ hcs' => exact absurd (start_of_isNumeral hdigits' hcs') (by decide)
      | group h' =>
          obtain ⟨rfl, hrest⟩ := ih h' (ends_type_group _) (ends_type_group _)
          cases hrest
          exact ⟨rfl, rfl⟩
  | object h ih =>
      intro b rest' h' _ _
      cases h' with
      | word hname' hcs' => exact absurd (start_of_isIdentifier hname' hcs') (by decide)
      | numeral hdigits' _ hcs' => exact absurd (start_of_isNumeral hdigits' hcs') (by decide)
      | object h' =>
          obtain ⟨rfl, hrest⟩ := ih h' trivial trivial
          exact ⟨rfl, hrest⟩
  | operand n h ih =>
      intro b rest' h' hends hends'
      cases h' with
      | operand n' h' =>
          obtain ⟨rfl, hbrackets⟩ := ih h' (delimited_brackets hends.1) (delimited_brackets hends'.1)
          obtain ⟨rfl, hrest⟩ := brackets_append_unique hbrackets hends.2 hends'.2
          exact ⟨rfl, hrest⟩
  | one h ih =>
      intro b rest' h' hends hends'
      cases h' with
      | one h' =>
          obtain ⟨rfl, hrest⟩ := ih h' ⟨hends.1, hends.2.1⟩ ⟨hends'.1, hends'.2.1⟩
          exact ⟨rfl, hrest⟩
      | more h' hrest' =>
          have := (ih h' ⟨hends.1, hends.2.1⟩ (ends_operand_bar _)).2
          exact absurd this (hends.2.2 _)
  | more h hrest ih ihrest =>
      intro b rest' h' hends hends'
      cases h' with
      | one h' =>
          have := (ih h' (ends_operand_bar _) ⟨hends'.1, hends'.2.1⟩).2
          exact absurd this.symm (hends'.2.2 _)
      | more h' hrest' =>
          obtain ⟨rfl, hbar⟩ := ih h' (ends_operand_bar _) (ends_operand_bar _)
          cases hbar
          obtain ⟨rfl, hend⟩ := ihrest hrest' hends hends'
          exact ⟨rfl, hend⟩
  | type h ih =>
      intro b rest' h' hends hends'
      cases h' with
      | type h' =>
          obtain ⟨rfl, hrest⟩ := ih h' hends hends'
          exact ⟨rfl, hrest⟩
  | lastMember hkey h ih =>
      intro b rest' h' _ _
      cases h' with
      | lastMember hkey' h' =>
          obtain ⟨rfl, rfl, hcs⟩ := hkey.unique hkey'
          cases hcs
          obtain ⟨rfl, hrest⟩ := ih h' (ends_type_brace _) (ends_type_brace _)
          cases hrest
          exact ⟨rfl, rfl⟩
      | member hkey' h' hrest' =>
          obtain ⟨rfl, rfl, hcs⟩ := hkey.unique hkey'
          cases hcs
          cases (ih h' (ends_type_brace _) (ends_type_semicolon _)).2
  | member hkey h hrest ih ihrest =>
      intro b rest' h' _ _
      cases h' with
      | lastMember hkey' h' =>
          obtain ⟨rfl, rfl, hcs⟩ := hkey.unique hkey'
          cases hcs
          cases (ih h' (ends_type_semicolon _) (ends_type_brace _)).2
      | member hkey' h' hrest' =>
          obtain ⟨rfl, rfl, hcs⟩ := hkey.unique hkey'
          cases hcs
          obtain ⟨rfl, htail⟩ := ih h' (ends_type_semicolon _) (ends_type_semicolon _)
          cases htail
          obtain ⟨rfl, hend⟩ := ihrest hrest' trivial trivial
          exact ⟨rfl, hend⟩

/-! ## Declarations -/

theorem ReadsLines.unique {cs rest rest' : List Char} {fields fields' : List (Field Shape)}
    (h : ReadsLines cs fields rest) (h' : ReadsLines cs fields' rest') :
    fields = fields' ∧ rest = rest' := by
  induction h generalizing fields' rest' with
  | close =>
      cases h'
      exact ⟨rfl, rfl⟩
  | line hkey h hrest ih =>
      generalize hcs : Declaration.indent ++ _ = cs at h'
      cases h' with
      | close => cases hcs
      | line hkey' h' hrest' =>
          obtain rfl := List.append_cancel_left hcs
          obtain ⟨rfl, rfl, hcs⟩ := hkey.unique hkey'
          cases hcs
          obtain ⟨rfl, htail⟩ := h.unique h' (ends_type_semicolon _) (ends_type_semicolon _)
          cases htail
          obtain ⟨rfl, hend⟩ := ih hrest'
          exact ⟨rfl, hend⟩

/-- A name in a declaration is followed by a blank. -/
theorem name_unique {name name' rest rest' : List Char} (hname : isIdentifier name = true)
    (hname' : isIdentifier name' = true) (h : name ++ ' ' :: rest = name' ++ ' ' :: rest') :
    name = name' ∧ rest = rest' := by
  have hblank : ∀ (tail : List Char) c, (' ' :: tail).head? = some c → isIdentifierPart c = false := by
    intro tail c hc
    cases hc
    rfl
  obtain ⟨rfl, hrest⟩ := append_unique h (parts_of_isIdentifier hname) (parts_of_isIdentifier hname')
    (hblank _) (hblank _)
  exact ⟨rfl, List.tail_eq_of_cons_eq hrest⟩

theorem interface_ne_type {cs cs' : List Char} :
    "export interface ".toList ++ cs ≠ "export type ".toList ++ cs' := by
  simp

theorem ReadsDeclared.unique {cs rest rest' : List Char} {d d' : Declared}
    (h : ReadsDeclared cs d rest) (h' : ReadsDeclared cs d' rest') : d = d' ∧ rest = rest' := by
  cases h with
  | empty hname hcs =>
      cases h' with
      | empty hname' hcs' =>
          obtain ⟨rfl, htail⟩ :=
            name_unique hname hname' (List.append_cancel_left (hcs.symm.trans hcs'))
          exact ⟨rfl, by simpa using htail⟩
      | interface hname' hcs' _ _ =>
          obtain ⟨rfl, htail⟩ :=
            name_unique hname hname' (List.append_cancel_left (hcs.symm.trans hcs'))
          cases htail
      | synonym _ hcs' _ => exact absurd (hcs.symm.trans hcs') interface_ne_type
  | interface hname hcs hlines hfields =>
      cases h' with
      | empty hname' hcs' =>
          obtain ⟨rfl, htail⟩ :=
            name_unique hname hname' (List.append_cancel_left (hcs.symm.trans hcs'))
          cases htail
      | interface hname' hcs' hlines' _ =>
          obtain ⟨rfl, htail⟩ :=
            name_unique hname hname' (List.append_cancel_left (hcs.symm.trans hcs'))
          obtain rfl : _ = _ := by simpa using htail
          obtain ⟨rfl, hrest⟩ := hlines.unique hlines'
          exact ⟨rfl, hrest⟩
      | synonym _ hcs' _ => exact absurd (hcs.symm.trans hcs') interface_ne_type
  | synonym hname hcs htype =>
      cases h' with
      | empty _ hcs' => exact absurd (hcs'.symm.trans hcs) interface_ne_type
      | interface _ hcs' _ _ => exact absurd (hcs'.symm.trans hcs) interface_ne_type
      | synonym hname' hcs' htype' =>
          obtain ⟨rfl, htail⟩ :=
            name_unique hname hname' (List.append_cancel_left (hcs.symm.trans hcs'))
          obtain rfl : _ = _ := by simpa using htail
          obtain ⟨rfl, hrest⟩ := htype.unique htype' (ends_type_semicolon _) (ends_type_semicolon _)
          cases hrest
          exact ⟨rfl, rfl⟩

theorem ReadsDeclarations.unique {cs : List Char} {ds ds' : List Declared}
    (h : ReadsDeclarations cs ds) (h' : ReadsDeclarations cs ds') : ds = ds' := by
  induction h generalizing ds' with
  | last h =>
      cases h' with
      | last h' => rw [(h.unique h').1]
      | more h' _ => cases (h.unique h').2
  | more h hrest ih =>
      cases h' with
      | last h' => cases (h.unique h').2
      | more h' hrest' =>
          obtain ⟨rfl, htail⟩ := h.unique h'
          cases htail
          rw [ih hrest']

/-! ## Files -/

theorem ReadsDeclarations.start {cs : List Char} {ds : List Declared} (h : ReadsDeclarations cs ds) :
    cs.head? = some 'e' := by
  have hstart : ∀ {d : Declared} {rest : List Char}, ReadsDeclared cs d rest → cs.head? = some 'e' := by
    intro d rest h
    cases h with
    | empty _ hcs => rw [hcs]; rfl
    | interface _ hcs _ _ => rw [hcs]; rfl
    | synonym _ hcs _ => rw [hcs]; rfl
  cases h with
  | last h => exact hstart h
  | more h _ => exact hstart h

theorem banner_eq_cons : ∃ tail, Generated.banner.toList = '/' :: tail := by
  unfold Generated.banner
  rw [String.toList_append, String.toList_append, String.toList_append, String.toList_ofList]
  exact ⟨_, rfl⟩

/-- **A file is read in one way only.** -/
theorem ReadsFile.unique {cs : List Char} {header header' : Bool} {ds ds' : List Declared}
    (h : ReadsFile cs header ds) (h' : ReadsFile cs header' ds') : header = header' ∧ ds = ds' := by
  -- the first character tells an empty file, the banner and a declaration apart
  obtain ⟨tail, htail⟩ := banner_eq_cons
  have hlonger : ∀ {rest : List Char}, tail ≠ tail ++ '\n' :: rest :=
    fun h => by cases List.self_eq_append_right.1 h
  cases h with
  | empty =>
      cases h' with
      | empty => exact ⟨rfl, rfl⟩
      | banner hcs' => rw [htail] at hcs'; cases hcs'
      | bare h' => cases h'.start
      | bannered hcs' _ => rw [htail] at hcs'; cases hcs'
  | banner hcs =>
      rw [htail] at hcs
      subst hcs
      cases h' with
      | banner hcs' => exact ⟨rfl, rfl⟩
      | bare h' => cases h'.start
      | bannered hcs' _ =>
          rw [htail] at hcs'
          exact absurd (List.tail_eq_of_cons_eq hcs') hlonger
  | bare h =>
      cases h' with
      | empty => cases h.start
      | banner hcs' => rw [hcs', htail] at h; cases h.start
      | bare h' => exact ⟨rfl, h.unique h'⟩
      | bannered hcs' _ => rw [hcs', htail] at h; cases h.start
  | bannered hcs h =>
      rw [htail] at hcs
      subst hcs
      cases h' with
      | banner hcs' =>
          rw [htail] at hcs'
          exact absurd (List.tail_eq_of_cons_eq hcs'.symm) hlonger
      | bare h' => cases h'.start
      | bannered hcs' h' =>
          rw [htail] at hcs'
          obtain rfl := List.tail_eq_of_cons_eq
            (List.append_cancel_left (List.tail_eq_of_cons_eq hcs'))
          exact ⟨rfl, h.unique h'⟩

end SchemaTyping.Grammar
