import Mathlib.Data.List.Infix
import SchemaTyping.Proofs.Grammar.Numerals
import SchemaTyping.Proofs.Grammar.ReadBack

set_option autoImplicit false

/-! # Bars in the text of a type

The text of a type is an alternation if it shows a bar outside all parentheses, braces and strings
(`Grammar.ShowsBar`). `Place` says where a character of a text stands and `Grammar.outermost` is what stands
outside. The text of a type whose names are identifiers is closed: what it opens it closes again, so it can be
put into brackets and nothing of it is seen from outside (`TypeExpr.WellNamed.seen`).

`TypeExpr.isAlternation` looks at the outermost node alone. It is right about every type but a union of one arm,
whose text is that of the arm (`TypeExpr.WellNamed.isAlternation_iff`). -/

namespace SchemaTyping

namespace Grammar

/-! ## What stands outside -/

/-- Where a character of a text stands. -/
inductive Place where
  /-- Inside so many parentheses and braces, and in no string. -/
  | code (depth : Nat)
  /-- In a string that stands so deep. -/
  | quoted (depth : Nat)
  /-- Behind a backslash in such a string. -/
  | escaped (depth : Nat)
  deriving DecidableEq

/-- Where the next character stands. -/
def Place.after : Place → Char → Place
  | .code depth, c =>
    if c = '"' then .quoted depth
    else if c = '(' ∨ c = '\x7b' then .code (depth + 1)
    else if c = ')' ∨ c = '\x7d' then .code (depth - 1)
    else .code depth
  | .quoted depth, c =>
    if c = '"' then .code depth
    else if c = '\\' then .escaped depth
    else .quoted depth
  | .escaped depth, _ => .quoted depth

/-- The characters that stand outside all parentheses, braces and strings. What opens one of them stands
    outside itself, so characters on two sides of one are never neighbours here. -/
def outermost : Place → List Char → List Char
  | _, [] => []
  | p, c :: cs => if p = .code 0 then c :: outermost (p.after c) cs else outermost (p.after c) cs

/-- The text has a bar between two arms outside all parentheses, braces and strings. -/
def ShowsBar (cs : List Char) : Prop := TypeExpr.bar <:+: outermost (.code 0) cs

instance (cs : List Char) : Decidable (ShowsBar cs) := inferInstanceAs (Decidable (_ <:+: _))

theorem outermost_append (p : Place) (cs cs' : List Char) :
    outermost p (cs ++ cs') = outermost p cs ++ outermost (cs.foldl Place.after p) cs' := by
  induction cs generalizing p with
  | nil => rfl
  | cons c cs ih =>
      simp only [List.cons_append, outermost, List.foldl_cons, ih]
      split
      · rw [List.cons_append]
      · rfl

/-! ## Closed texts -/

/-- The text closes what it opens and no more: whatever stands behind it stands as deep as the text, and
    inside brackets nothing of it is seen. -/
structure Closed (cs : List Char) : Prop where
  ends : ∀ depth, cs.foldl Place.after (.code depth) = .code depth
  hidden : ∀ depth, outermost (.code (depth + 1)) cs = []

theorem Closed.outermost_append {cs : List Char} (h : Closed cs) (cs' : List Char) :
    outermost (.code 0) (cs ++ cs') = outermost (.code 0) cs ++ outermost (.code 0) cs' := by
  rw [Grammar.outermost_append, h.ends]

theorem closed_nil : Closed [] := ⟨fun _ => rfl, fun _ => rfl⟩

theorem Closed.append {cs cs' : List Char} (h : Closed cs) (h' : Closed cs') : Closed (cs ++ cs') where
  ends depth := by rw [List.foldl_append, h.ends, h'.ends]
  hidden depth := by rw [Grammar.outermost_append, h.hidden, h.ends, h'.hidden, List.append_nil]

/-- A character that opens and closes nothing. -/
def isPlain (c : Char) : Bool := c ∉ ['"', '(', '\x7b', ')', '\x7d']

theorem after_of_isPlain {c : Char} (h : isPlain c = true) (depth : Nat) :
    Place.after (.code depth) c = .code depth := by
  simp only [isPlain, decide_eq_true_eq, List.mem_cons, List.not_mem_nil, or_false, not_or] at h
  simp [Place.after, h]

theorem closed_of_isPlain {cs : List Char} (h : cs.all isPlain = true) :
    Closed cs ∧ outermost (.code 0) cs = cs := by
  induction cs with
  | nil => exact ⟨closed_nil, rfl⟩
  | cons c cs ih =>
      obtain ⟨hc, hcs⟩ : isPlain c = true ∧ cs.all isPlain = true := by simpa using h
      obtain ⟨⟨hends, hhidden⟩, houter⟩ := ih hcs
      refine ⟨⟨fun depth => ?_, fun depth => ?_⟩, ?_⟩
      · rw [List.foldl_cons, after_of_isPlain hc, hends]
      · simp [outermost, after_of_isPlain hc, hhidden]
      · simp [outermost, after_of_isPlain hc, houter]

/-- A closed text in parentheses or braces is closed, and nothing of it is seen. -/
theorem Closed.enclosed {opening closing : Char} (hopening : opening = '(' ∨ opening = '\x7b')
    (hclosing : closing = ')' ∨ closing = '\x7d') {cs : List Char} (h : Closed cs) :
    Closed (opening :: (cs ++ [closing])) ∧
      outermost (.code 0) (opening :: (cs ++ [closing])) = [opening] := by
  have hopen (depth : Nat) : Place.after (.code depth) opening = .code (depth + 1) := by
    rcases hopening with rfl | rfl <;> rfl
  have hclose (depth : Nat) : Place.after (.code (depth + 1)) closing = .code depth := by
    rcases hclosing with rfl | rfl <;> rfl
  have hinside (depth : Nat) : outermost (.code (depth + 1)) (cs ++ [closing]) = [] := by
    rw [Grammar.outermost_append, h.hidden, h.ends]
    rfl
  refine ⟨⟨fun depth => ?_, fun depth => ?_⟩, ?_⟩
  · rw [List.foldl_cons, hopen, List.foldl_append, h.ends, List.foldl_cons, hclose, List.foldl_nil]
  · simp [outermost, hopen, hinside]
  · simp [outermost, hopen, hinside]

/-! ## Strings -/

/-- A character of a string stays in the string, escaped or not. -/
theorem escapeChar_quoted (c : Char) (depth : Nat) :
    (Json.escapeChar c).foldl Place.after (.quoted depth) = .quoted depth ∧
      outermost (.quoted depth) (Json.escapeChar c) = [] := by
  have hhex : ∀ n < 0x20, Json.hexDigit (n / 16) ≠ '"' ∧ Json.hexDigit (n / 16) ≠ '\\' ∧
      Json.hexDigit (n % 16) ≠ '"' ∧ Json.hexDigit (n % 16) ≠ '\\' := by decide
  unfold Json.escapeChar
  split
  · exact ⟨rfl, rfl⟩
  next hquote =>
  split
  · exact ⟨rfl, rfl⟩
  next hbackslash =>
  repeat' split
  · exact ⟨rfl, rfl⟩
  · exact ⟨rfl, rfl⟩
  · exact ⟨rfl, rfl⟩
  · exact ⟨rfl, rfl⟩
  · exact ⟨rfl, rfl⟩
  · next hcontrol =>
      obtain ⟨h₁, h₂, h₃, h₄⟩ := hhex _ hcontrol
      simp [Place.after, outermost, h₁, h₂, h₃, h₄]
  · simp [Place.after, outermost, hquote, hbackslash]

theorem flatMap_escapeChar_quoted (content : List Char) (depth : Nat) :
    (content.flatMap Json.escapeChar).foldl Place.after (.quoted depth) = .quoted depth ∧
      outermost (.quoted depth) (content.flatMap Json.escapeChar) = [] := by
  induction content with
  | nil => exact ⟨rfl, rfl⟩
  | cons c content ih =>
      obtain ⟨hends, hhidden⟩ := escapeChar_quoted c depth
      rw [List.flatMap_cons, List.foldl_append, hends, outermost_append, hends, hhidden]
      exact ih

/-- A string is closed, and nothing of it is seen but where it starts. -/
theorem closed_quotedChars (s : String) :
    Closed (Json.quotedChars s) ∧ outermost (.code 0) (Json.quotedChars s) = ['"'] := by
  have hstart (depth : Nat) : Place.after (.code depth) '"' = .quoted depth := rfl
  have hinside (depth : Nat) := flatMap_escapeChar_quoted s.toList depth
  have hrest (depth : Nat) :
      outermost (.quoted depth) (s.toList.flatMap Json.escapeChar ++ ['"']) = [] := by
    rw [outermost_append, (hinside depth).1, (hinside depth).2]
    rfl
  refine ⟨⟨fun depth => ?_, fun depth => ?_⟩, ?_⟩
  · rw [Json.quotedChars, List.foldl_cons, hstart, List.foldl_append, (hinside depth).1]
    rfl
  · simp [Json.quotedChars, outermost, hstart, hrest]
  · simp [Json.quotedChars, outermost, hstart, hrest]

/-! ## Texts without a bar -/

/-- The text is closed, and no bar of it is seen. -/
structure Solid (cs : List Char) : Prop where
  closed : Closed cs
  unbarred : '|' ∉ outermost (.code 0) cs

theorem Solid.append {cs cs' : List Char} (h : Solid cs) (h' : Solid cs') : Solid (cs ++ cs') where
  closed := h.closed.append h'.closed
  unbarred := by
    rw [h.closed.outermost_append, List.mem_append]
    exact not_or.2 ⟨h.unbarred, h'.unbarred⟩

theorem solid_of_isPlain {cs : List Char} (h : cs.all isPlain = true) (hbar : '|' ∉ cs) : Solid cs where
  closed := (closed_of_isPlain h).1
  unbarred := by rwa [(closed_of_isPlain h).2]

theorem solid_quotedChars (s : String) : Solid (Json.quotedChars s) where
  closed := (closed_quotedChars s).1
  unbarred := by
    rw [(closed_quotedChars s).2]
    decide

theorem Closed.solid_group {cs : List Char} (h : Closed cs) : Solid ('(' :: (cs ++ [')'])) := by
  obtain ⟨hclosed, houter⟩ := h.enclosed (Or.inl rfl) (Or.inl rfl)
  exact ⟨hclosed, by rw [houter]; decide⟩

theorem Closed.solid_braces {cs : List Char} (h : Closed cs) : Solid ('\x7b' :: (cs ++ ['\x7d'])) := by
  obtain ⟨hclosed, houter⟩ := h.enclosed (Or.inr rfl) (Or.inr rfl)
  exact ⟨hclosed, by rw [houter]; decide⟩

/-- Words and numerals open and close nothing, and have no bar. -/
theorem solid_of_parts {cs : List Char}
    (h : ∀ c ∈ cs, isIdentifierPart c = true ∨ isNumeralPart c = true) : Solid cs := by
  have hother : ∀ c ∈ ['"', '(', '\x7b', ')', '\x7d', '|'],
      isIdentifierPart c = false ∧ isNumeralPart c = false := by
    simp only [List.forall_mem_cons, List.not_mem_nil, false_imp_iff, implies_true, and_true]
    decide
  have hpart : ∀ c ∈ cs, c ∉ ['"', '(', '\x7b', ')', '\x7d', '|'] := by
    intro c hc hmem
    obtain ⟨hidentifier, hnumeral⟩ := hother c hmem
    have hc := h c hc
    simp [hidentifier, hnumeral] at hc
  refine solid_of_isPlain (List.all_eq_true.2 fun c hc => decide_eq_true fun hmem => ?_) fun hbar => ?_
  · exact hpart c hc (List.mem_append_left ['|'] hmem)
  · exact hpart '|' hbar (by simp)

theorem solid_of_isIdentifier {name : List Char} (h : isIdentifier name = true) : Solid name :=
  solid_of_parts fun c hc => Or.inl (parts_of_isIdentifier h c hc)

/-! ## Separated texts -/

theorem Closed.intercalate {separator : List Char} (h : Closed separator) {pieces : List (List Char)}
    (hpieces : ∀ piece ∈ pieces, Closed piece) : Closed (separator.intercalate pieces) := by
  induction pieces with
  | nil => exact closed_nil
  | cons first others ih =>
      obtain ⟨hfirst, hothers⟩ := List.forall_mem_cons.1 hpieces
      cases others with
      | nil => simpa [List.intercalate] using hfirst
      | cons second others =>
          rw [intercalate_cons_cons]
          exact hfirst.append (h.append (ih hothers))

theorem solid_never : Solid TypeExpr.never := solid_of_isIdentifier (by decide)

theorem closed_alternation {pieces : List (List Char)} (h : ∀ piece ∈ pieces, Closed piece) :
    Closed (TypeExpr.alternation pieces) := by
  have hbar : Closed TypeExpr.bar := (closed_of_isPlain (by decide)).1
  cases pieces with
  | nil => exact solid_never.closed
  | cons first others => exact hbar.intercalate h

/-- A bar between closed texts is seen. -/
theorem showsBar_alternation {pieces : List (List Char)} (h : ∀ piece ∈ pieces, Closed piece)
    (hmany : 1 < pieces.length) : ShowsBar (TypeExpr.alternation pieces) := by
  obtain ⟨hbar, houter⟩ : Closed TypeExpr.bar ∧ outermost (.code 0) TypeExpr.bar = TypeExpr.bar :=
    closed_of_isPlain (by decide)
  match pieces, h, hmany with
  | first :: second :: others, h, _ =>
    have hfirst := h first List.mem_cons_self
    have htext : TypeExpr.alternation (first :: second :: others)
        = first ++ (TypeExpr.bar ++ TypeExpr.bar.intercalate (second :: others)) :=
      intercalate_cons_cons _ _ _ _
    rw [ShowsBar, htext, hfirst.outermost_append, hbar.outermost_append, houter]
    exact ⟨_, _, List.append_assoc _ _ _⟩

theorem not_showsBar {cs : List Char} (h : '|' ∉ outermost (.code 0) cs) : ¬ ShowsBar cs :=
  fun hbar => h (hbar.mem (by decide))

end Grammar

open Grammar

/-! ## Literals and keys -/

theorem Literal.solid_chars (l : Literal) : Solid l.chars := by
  cases l with
  | null => exact solid_of_isIdentifier (by decide)
  | boolean b => cases b <;> exact solid_of_isIdentifier (by decide)
  | number x =>
      refine solid_of_parts fun c hc => ?_
      cases x with
      | finite x => exact Or.inr (parts_of_isNumeral (isNumeral_finiteChars x) c hc)
      | infinite negative =>
          have hparts : (numberChars (.infinite negative)).all
              (fun c => isIdentifierPart c || isNumeralPart c) = true := by cases negative <;> decide
          simpa using List.all_eq_true.1 hparts c hc
      | nan =>
          have hparts : (numberChars .nan).all (fun c => isIdentifierPart c || isNumeralPart c) = true := by
            decide
          simpa using List.all_eq_true.1 hparts c hc
  | text s => exact solid_quotedChars s

theorem Field.solid_keyChars {τ : Type} (f : Field τ) : Solid f.keyChars := by
  have hname : Solid (if isIdentifier f.name.toList then f.name.toList else Json.quotedChars f.name) := by
    split
    · next h => exact solid_of_isIdentifier h
    · exact solid_quotedChars f.name
  have hmark : Solid (if f.optional then ['?'] else []) := by
    split <;> exact solid_of_isPlain (by decide) (by decide)
  exact hname.append hmark

namespace TypeExpr

/-! ## Types -/

/-- The names of scalars and of declared types are identifiers. -/
inductive WellNamed : TypeExpr → Prop where
  | scalar {name : String} (hname : isIdentifier name.toList = true) : WellNamed (.scalar name)
  | reference {name : String} (hname : isIdentifier name.toList = true) : WellNamed (.reference name)
  | anyObject : WellNamed .anyObject
  | array {item : TypeExpr} (h : WellNamed item) : WellNamed (.array item)
  | object {fields : List (Field TypeExpr)} (h : ∀ field ∈ fields, WellNamed field.type) :
      WellNamed (.object fields)
  | union {arms : List TypeExpr} (h : ∀ arm ∈ arms, WellNamed arm) : WellNamed (.union arms)
  | literals (values : List Literal) : WellNamed (.literals values)

/-- The type is not an alternation at its outermost node, but its text is that of one: a union of one arm that
    is an alternation, or such a union of one arm again, or an array of such a union, which has no
    parentheses. -/
inductive HidesBar : TypeExpr → Prop where
  | arm {arm : TypeExpr} (h : arm.isAlternation = true) : HidesBar (.union [arm])
  | nested {arm : TypeExpr} (h : HidesBar arm) : HidesBar (.union [arm])
  | item {item : TypeExpr} (h : HidesBar item) : HidesBar (.array item)

theorem HidesBar.isAlternation {t : TypeExpr} (h : t.HidesBar) : t.isAlternation = false := by
  cases h <;> rfl

variable {objectName : String}

/-- What is seen of the text of a type. -/
structure Seen (objectName : String) (t : TypeExpr) : Prop where
  closed : Closed (t.chars objectName)
  showsBar : t.isAlternation = true ∨ t.HidesBar → ShowsBar (t.chars objectName)
  unbarred : t.isAlternation = false → ¬ t.HidesBar → '|' ∉ outermost (.code 0) (t.chars objectName)

theorem Seen.of_solid {t : TypeExpr} (h : Solid (t.chars objectName)) (hone : t.isAlternation = false)
    (hhides : ¬ t.HidesBar) : Seen objectName t where
  closed := h.closed
  showsBar hbar := by
    rcases hbar with hbar | hbar
    · rw [hone] at hbar
      cases hbar
    · exact absurd hbar hhides
  unbarred _ _ := h.unbarred

/-- The text of several closed pieces with bars between them. -/
theorem Seen.of_pieces {t : TypeExpr} {pieces : List (List Char)}
    (htext : t.chars objectName = alternation pieces) (h : ∀ piece ∈ pieces, Closed piece)
    (hmany : 1 < pieces.length) (halternation : t.isAlternation = true) : Seen objectName t where
  closed := htext ▸ closed_alternation h
  showsBar _ := htext ▸ showsBar_alternation h hmany
  unbarred hone := by
    rw [halternation] at hone
    cases hone

theorem Seen.array {item : TypeExpr} (h : Seen objectName item) : Seen objectName (.array item) := by
  have hbrackets : Solid ['[', ']'] := solid_of_isPlain (by decide) (by decide)
  by_cases hitem : item.isAlternation = true
  · have htext : (TypeExpr.array item).chars objectName
        = '(' :: (item.chars objectName ++ [')']) ++ ['[', ']'] := by simp [chars, hitem]
    refine .of_solid (htext ▸ h.closed.solid_group.append hbrackets) rfl fun hhides => ?_
    cases hhides with
    | item hhides => simp [hhides.isAlternation] at hitem
  · have htext : (TypeExpr.array item).chars objectName = item.chars objectName ++ ['[', ']'] := by
      simp [chars, hitem]
    refine ⟨htext ▸ h.closed.append hbrackets.closed, fun hbar => ?_, fun _ hhides => ?_⟩
    · rcases hbar with hbar | hbar
      · cases hbar
      · cases hbar with
        | item hhides =>
            rw [ShowsBar, htext, h.closed.outermost_append]
            exact (h.showsBar (Or.inr hhides)).trans (List.prefix_append _ _).isInfix
    · have hplain := h.unbarred (by simpa using hitem) fun hnested => hhides (.item hnested)
      rw [htext]
      exact (Solid.append ⟨h.closed, hplain⟩ hbrackets).unbarred

theorem closed_fieldsChars {fields : List (Field TypeExpr)}
    (h : ∀ field ∈ fields, Seen objectName field.type) :
    ∀ piece ∈ fieldsChars objectName fields, Closed piece := by
  induction fields with
  | nil => exact fun _ hpiece => absurd hpiece List.not_mem_nil
  | cons field fields ih =>
      obtain ⟨hfirst, hothers⟩ := List.forall_mem_cons.1 h
      have hkey := (Field.mk field.name () field.optional).solid_keyChars.closed
      have hcolon : Closed [':', ' '] := (closed_of_isPlain (by decide)).1
      rw [fieldsChars]
      exact List.forall_mem_cons.2 ⟨hkey.append (hcolon.append hfirst.closed), ih hothers⟩

theorem Seen.object {fields : List (Field TypeExpr)} (h : ∀ field ∈ fields, Seen objectName field.type) :
    Seen objectName (.object fields) := by
  have hpieces := closed_fieldsChars h
  have hspace : Closed [' '] := (closed_of_isPlain (by decide)).1
  have hsemicolon : Closed semicolon := (closed_of_isPlain (by decide)).1
  refine .of_solid ?_ rfl nofun
  rw [chars]
  cases hchars : fieldsChars objectName fields with
  | nil => exact closed_nil.solid_braces
  | cons first others =>
      rw [hchars] at hpieces
      have hinside := hspace.append ((hsemicolon.intercalate hpieces).append hspace)
      simpa [braces] using hinside.solid_braces

theorem Seen.union {arms : List TypeExpr} (h : ∀ arm ∈ arms, Seen objectName arm) :
    Seen objectName (.union arms) := by
  have htext : (TypeExpr.union arms).chars objectName = alternation (arms.map (chars objectName)) := by
    rw [chars, armsChars_eq_map]
  rcases arms with _ | ⟨arm, _ | ⟨second, others⟩⟩
  · exact .of_solid solid_never rfl fun hhides => by cases hhides
  · -- the text is that of the arm
    have harm := h arm List.mem_cons_self
    replace htext : (TypeExpr.union [arm]).chars objectName = arm.chars objectName := by
      simpa [alternation, List.intercalate] using htext
    refine ⟨htext ▸ harm.closed, fun hbar => ?_, fun _ hhides => ?_⟩
    · rw [htext]
      rcases hbar with hbar | hbar
      · cases hbar
      · cases hbar with
        | arm halternation => exact harm.showsBar (Or.inl halternation)
        | nested hhides => exact harm.showsBar (Or.inr hhides)
    · rw [htext]
      refine harm.unbarred ?_ fun hnested => hhides (.nested hnested)
      exact Bool.eq_false_iff.2 fun halternation => hhides (.arm halternation)
  · exact .of_pieces htext (List.forall_mem_map.2 fun arm harm => (h arm harm).closed) (by simp)
      (by simp [isAlternation])

theorem Seen.literals (values : List Literal) : Seen objectName (.literals values) := by
  match values with
  | [] => exact .of_solid solid_never rfl nofun
  | [l] =>
    refine .of_solid ?_ rfl nofun
    simpa [chars, alternation, List.intercalate] using l.solid_chars
  | first :: second :: others =>
    exact .of_pieces rfl (List.forall_mem_map.2 fun l _ => l.solid_chars.closed) (by simp)
      (by simp [isAlternation])

theorem WellNamed.seen {t : TypeExpr} (hobject : isIdentifier objectName.toList = true)
    (h : t.WellNamed) : Seen objectName t := by
  induction h with
  | scalar hname => exact .of_solid (solid_of_isIdentifier hname) rfl nofun
  | reference hname => exact .of_solid (solid_of_isIdentifier hname) rfl nofun
  | anyObject => exact .of_solid (solid_of_isIdentifier hobject) rfl nofun
  | array _ ih => exact ih.array
  | object _ ih => exact .object ih
  | union _ ih => exact .union ih
  | literals values => exact .literals values

theorem WellNamed.showsBar_iff {t : TypeExpr} (hobject : isIdentifier objectName.toList = true)
    (h : t.WellNamed) : ShowsBar (t.chars objectName) ↔ t.isAlternation = true ∨ t.HidesBar := by
  have hseen := h.seen hobject
  refine ⟨fun hbar => ?_, hseen.showsBar⟩
  by_contra hneither
  obtain ⟨hone, hhides⟩ := not_or.1 hneither
  exact not_showsBar (hseen.unbarred (by simpa using hone) hhides) hbar

/-- **An alternation is a type whose text shows a bar**, unions of one arm apart: every alternation shows one,
    and another type does so exactly if it hides an alternation in a union of one arm. The brackets of an array
    stand behind a text without a bar, and so belong to the whole item, exactly if the item hides none. -/
theorem WellNamed.isAlternation_iff {t : TypeExpr} (hobject : isIdentifier objectName.toList = true)
    (h : t.WellNamed) :
    (t.isAlternation = true ↔ ShowsBar (t.chars objectName) ∧ ¬ t.HidesBar) ∧
      (t.HidesBar → ShowsBar (t.chars objectName)) ∧
      (ShowsBar ((TypeExpr.array t).chars objectName) ↔ t.HidesBar) := by
  refine ⟨⟨fun halternation => ⟨?_, fun hhides => ?_⟩, fun ⟨hbar, hhides⟩ => ?_⟩, fun hhides => ?_, ?_⟩
  · exact (h.showsBar_iff hobject).2 (Or.inl halternation)
  · simp [hhides.isAlternation] at halternation
  · exact ((h.showsBar_iff hobject).1 hbar).resolve_right hhides
  · exact (h.showsBar_iff hobject).2 (Or.inr hhides)
  · rw [(WellNamed.array h).showsBar_iff hobject]
    constructor
    · rintro (halternation | hhides)
      · cases halternation
      · cases hhides with
        | item hhides => exact hhides
    · exact fun hhides => Or.inr (.item hhides)

/-- A choice with a bar in a string, and with another choice in parentheses. -/
def tags : TypeExpr :=
  .union [.literals [.text "a | b"], .array (.union [.scalar "string", .reference "Tag"])]

/-- `("a | b" | (string | Tag)[])[]` is an array of the whole choice. -/
theorem tags_isAlternation_iff : tags.WellNamed ∧ isIdentifier "Object".toList = true ∧
    (tags.isAlternation = true ↔ ShowsBar (tags.chars "Object") ∧ ¬ tags.HidesBar) ∧
      (tags.HidesBar → ShowsBar (tags.chars "Object")) ∧
      (ShowsBar ((TypeExpr.array tags).chars "Object") ↔ tags.HidesBar) := by
  have hnamed : tags.WellNamed := by
    refine .union (List.forall_mem_cons.2 ⟨.literals _, List.forall_mem_singleton.2 (.array ?_)⟩)
    exact .union (List.forall_mem_cons.2
      ⟨.scalar (by decide), List.forall_mem_singleton.2 (.reference (by decide))⟩)
  exact ⟨hnamed, by decide, hnamed.isAlternation_iff (by decide)⟩

/-- A choice as the only arm of a union. -/
def wrappedChoice : TypeExpr := .union [.union [.scalar "string", .scalar "number"]]

/-- Its text is that of the choice, but it is no alternation, and in an array it gets no parentheses. -/
theorem wrappedChoice_hides_bar :
    wrappedChoice.isAlternation = false ∧ ShowsBar (wrappedChoice.chars "Object") ∧
      (TypeExpr.array wrappedChoice).render "Object" = "string | number[]" := by decide

end TypeExpr

end SchemaTyping
