import SchemaTyping.Proofs.Grammar.Numerals
import SchemaTyping.Proofs.Grammar.Unambiguous
import SchemaTyping.Proofs.Json.Quoting
import SchemaTyping.Proofs.Resolution.Printable

set_option autoImplicit false

/-! # Generated files are read back

`TypeExpr.shape` is the structure that the text of a type is meant to show: scalars, references and objects
without known fields are all words, strings and numbers are known by their values, the arms of nested unions
are not told apart, and a type without values is the word `never`. The text of every printable type is read
with this structure, whatever follows it, by induction on the type; with the grammar being unambiguous, it is
read with no other.

An arm of a union may itself be several alternatives, and the item of an array may be in parentheses, so
the induction keeps two facts about a type (`TypeExpr.ReadBack`): its text is read as a list of arms, and
as one operand unless it is an alternation. -/

namespace SchemaTyping

open Grammar

/-! ## Structures -/

namespace Grammar

/-- An alternation of nothing is written as a word. -/
def Shape.orNever : List Shape → List Shape
  | [] => [.word (String.ofList TypeExpr.never)]
  | arms => arms

end Grammar

/-- The structure of a literal: those of fixed spelling are words, the others have values. -/
def Literal.shape : Literal → Shape
  | .null => .word "null"
  | .boolean true => .word "true"
  | .boolean false => .word "false"
  | .number x => .numeral x
  | .text s => .text s

namespace TypeExpr

mutual

/-- The structures of the arms that the text of a type shows. -/
def armShapes (objectName : String) : TypeExpr → List Shape
  | .scalar name => [.word name]
  | .reference name => [.word name]
  | .anyObject => [.word objectName]
  | .array item => [.array (Shape.oneOf (armShapes objectName item))]
  | .object fields => [.object (fieldShapes objectName fields)]
  | .union arms => Shape.orNever (armsShapes objectName arms)
  | .literals values => Shape.orNever (values.map Literal.shape)

/-- The structures of the arms of several types, one behind the other. -/
def armsShapes (objectName : String) : List TypeExpr → List Shape
  | [] => []
  | arm :: rest => armShapes objectName arm ++ armsShapes objectName rest

/-- Fields with the structures of their types. -/
def fieldShapes (objectName : String) : List (Field TypeExpr) → List (Field Shape)
  | [] => []
  | ⟨name, type, optional⟩ :: rest =>
    ⟨name, Shape.oneOf (armShapes objectName type), optional⟩ :: fieldShapes objectName rest

end

/-- The structure that the text of a type shows. -/
def shape (objectName : String) (t : TypeExpr) : Shape := Shape.oneOf (t.armShapes objectName)

end TypeExpr

/-- The structure that the text of a declaration shows. -/
def Declaration.declared (objectName : String) (d : Declaration) : Declared :=
  match d.type with
  | .object fields => .interface d.name (TypeExpr.fieldShapes objectName fields)
  | type => .synonym d.name (type.shape objectName)

/-! ## Parts of the grammar -/

namespace Grammar

theorem intercalate_cons_cons (separator first second : List Char) (others : List (List Char)) :
    separator.intercalate (first :: second :: others)
      = first ++ (separator ++ separator.intercalate (second :: others)) := by
  simp [List.intercalate]

/-- A primary is an operand without brackets. -/
theorem Reads.bare {cs rest : List Char} {t : Shape} (h : Reads .primary cs t rest) :
    Reads .operand cs t rest := .operand 0 h

theorem reads_word {name : String} (hname : isIdentifier name.toList = true) (rest : List Char) :
    Reads .operand (name.toList ++ rest) (Shape.word name) rest := by
  have hword : Reads .primary (name.toList ++ rest) _ rest := .word hname rfl
  rw [String.ofList_toList] at hword
  exact hword.bare

/-- Brackets behind an operand make it an array. -/
theorem Reads.array {cs rest : List Char} {item : Shape}
    (h : Reads .operand cs item ('[' :: ']' :: rest)) : Reads .operand cs (Shape.array item) rest := by
  cases h with
  | operand n h =>
      have hbrackets : ∀ n, brackets n ++ '[' :: ']' :: rest = brackets (n + 1) ++ rest := by
        intro n
        induction n with
        | zero => rfl
        | succ n ih => rw [brackets, List.cons_append, List.cons_append, ih]; rfl
      rw [hbrackets] at h
      exact .operand (n + 1) h

/-- Arms go on with further arms behind a bar. -/
theorem Reads.append {cs cs' rest : List Char} {ts ts' : List Shape}
    (h : Reads .arms cs ts (TypeExpr.bar ++ cs')) (h' : Reads .arms cs' ts' rest) :
    Reads .arms cs (ts ++ ts' : List Shape) rest := by
  match h with
  | .one h => exact .more h h'
  | .more h hrest => exact .more h (hrest.append h')

/-- There is at least one arm. -/
theorem Reads.orNever_eq {cs rest : List Char} {ts : List Shape} (h : Reads .arms cs ts rest) :
    Shape.orNever ts = ts := by
  cases h <;> rfl

/-- Texts that are read as arms are so with bars between them. -/
theorem reads_intercalate {α : Type} {text : α → List Char} {shapes : α → List Shape}
    {pieces : List α} (hpieces : pieces ≠ [])
    (h : ∀ piece ∈ pieces, ∀ rest, Reads .arms (text piece ++ rest) (shapes piece) rest)
    (rest : List Char) :
    Reads .arms (TypeExpr.bar.intercalate (pieces.map text) ++ rest) (pieces.flatMap shapes) rest := by
  induction pieces with
  | nil => exact absurd rfl hpieces
  | cons piece pieces ih =>
      cases pieces with
      | nil => simpa [List.intercalate] using h piece List.mem_cons_self rest
      | cons second pieces =>
          have hothers := ih (List.cons_ne_nil _ _) fun p hp => h p (List.mem_cons_of_mem _ hp)
          rw [List.map_cons, List.map_cons, intercalate_cons_cons, List.append_assoc,
            List.append_assoc, List.flatMap_cons]
          exact (h piece List.mem_cons_self _).append hothers

theorem reads_alternation {α : Type} {text : α → List Char} {shapes : α → List Shape}
    {pieces : List α}
    (h : ∀ piece ∈ pieces, ∀ rest, Reads .arms (text piece ++ rest) (shapes piece) rest)
    (rest : List Char) :
    Reads .arms (TypeExpr.alternation (pieces.map text) ++ rest)
      (Shape.orNever (pieces.flatMap shapes)) rest := by
  cases pieces with
  | nil => exact .one (.bare (.word (show isIdentifier TypeExpr.never = true by decide) rfl))
  | cons piece pieces =>
      have harms := reads_intercalate (List.cons_ne_nil _ _) h rest
      rw [harms.orNever_eq]
      exact harms

/-- A key is read back with its mark. -/
theorem readsKey_keyChars {τ : Type} (f : Field τ) (rest : List Char) :
    ReadsKey (f.keyChars ++ rest) f.name f.optional rest := by
  have hname : ∀ tail, ReadsName
      ((if isIdentifier f.name.toList then f.name.toList else Json.quotedChars f.name) ++ tail)
      f.name tail := by
    intro tail
    split
    · next hbare =>
        have h : ReadsName (f.name.toList ++ tail) _ tail := .bare hbare rfl
        rwa [String.ofList_toList] at h
    · obtain ⟨cs, hcs, hread⟩ := Json.quotedChars_append f.name tail
      have h := ReadsName.quoted hread
      rwa [String.ofList_toList, ← hcs] at h
  unfold Field.keyChars
  rw [List.append_assoc]
  cases f.optional with
  | false => exact .required (hname _)
  | true => exact .optional (hname _)

end Grammar

/-! ## Literals -/

theorem Literal.reads {l : Literal} (h : l.FromJson) (rest : List Char) :
    Reads .operand (l.chars ++ rest) l.shape rest := by
  cases l with
  | null => exact .bare (.word (by decide) rfl)
  | boolean b =>
      cases b with
      | false => exact .bare (.word (by decide) rfl)
      | true => exact .bare (.word (by decide) rfl)
  | number x =>
      obtain ⟨x, rfl, hx⟩ := h.proper
      obtain ⟨n, hn, hread⟩ := read_back_finite hx
      have hnumeral : Reads .primary (finiteChars x ++ rest) _ rest :=
        .numeral (isNumeral_finiteChars x) hread rfl
      rw [hn] at hnumeral
      exact hnumeral.bare
  | text s =>
      obtain ⟨cs, hcs, hread⟩ := Json.quotedChars_append s rest
      have htext := Reads.text hread
      rw [String.ofList_toList, ← hcs] at htext
      exact htext.bare

/-! ## Types -/

namespace TypeExpr

variable {objectName : String}

theorem armsChars_eq_map (arms : List TypeExpr) :
    armsChars objectName arms = arms.map (chars objectName) := by
  induction arms with
  | nil => rfl
  | cons arm arms ih => rw [armsChars, ih, List.map_cons]

theorem armsShapes_eq_flatMap (arms : List TypeExpr) :
    armsShapes objectName arms = arms.flatMap (armShapes objectName) := by
  induction arms with
  | nil => rfl
  | cons arm arms ih => rw [armsShapes, ih, List.flatMap_cons]

/-- How the text of a type is read. -/
structure ReadBack (objectName : String) (t : TypeExpr) : Prop where
  arms : ∀ rest, Reads .arms (t.chars objectName ++ rest) (t.armShapes objectName) rest
  operand : t.isAlternation = false →
    ∀ rest, Reads .operand (t.chars objectName ++ rest) (t.shape objectName) rest

/-- One operand is one arm. -/
theorem ReadBack.of_operand {t : TypeExpr} {s : Shape} (hshape : t.armShapes objectName = [s])
    (h : ∀ rest, Reads .operand (t.chars objectName ++ rest) s rest) : ReadBack objectName t where
  arms rest := hshape ▸ .one (h rest)
  operand _ rest := by
    rw [shape, hshape]
    exact h rest

theorem ReadBack.type {t : TypeExpr} (h : ReadBack objectName t) (rest : List Char) :
    Reads .type (t.chars objectName ++ rest) (t.shape objectName) rest := .type (h.arms rest)

/-- The item of an array is read as one operand, in parentheses or without. -/
theorem ReadBack.array {item : TypeExpr} (h : ReadBack objectName item) :
    ReadBack objectName (.array item) := by
  refine .of_operand (s := .array (item.shape objectName)) rfl fun rest => ?_
  rw [chars]
  -- with parentheses the item is read as a type, without them it is an operand as it stands
  split
  · have hgroup := h.type (')' :: '[' :: ']' :: rest)
    simpa using Reads.array (.bare (.group hgroup))
  · next hitem =>
      have hoperand := h.operand (Bool.eq_false_iff.2 hitem) ('[' :: ']' :: rest)
      simpa using hoperand.array

/-- The fields of an object are read up to its closing brace. -/
theorem reads_members {fields : List (Field TypeExpr)} (hfields : fields ≠ [])
    (h : ∀ field ∈ fields, ReadBack objectName field.type) (rest : List Char) :
    Reads .members
      (semicolon.intercalate (fieldsChars objectName fields) ++ ' ' :: '\x7d' :: rest)
      (fieldShapes objectName fields) rest := by
  induction fields with
  | nil => exact absurd rfl hfields
  | cons field fields ih =>
      obtain ⟨name, type, optional⟩ := field
      have hkey := readsKey_keyChars (Field.mk name () optional)
      have htype := (h _ List.mem_cons_self).type
      cases fields with
      | nil =>
          have hmember := Reads.lastMember (hkey _) (htype (' ' :: '\x7d' :: rest))
          simpa [fieldsChars, fieldShapes, shape, List.intercalate] using hmember
      | cons second fields =>
          have hothers := ih (List.cons_ne_nil _ _) fun f hf => h f (List.mem_cons_of_mem _ hf)
          have hmember := Reads.member (hkey _) (htype _) hothers
          obtain ⟨name', type', optional'⟩ := second
          simp only [fieldsChars, intercalate_cons_cons, List.append_assoc, List.cons_append]
            at hmember ⊢
          exact hmember

theorem ReadBack.object {fields : List (Field TypeExpr)} (hfields : fields ≠ [])
    (h : ∀ field ∈ fields, ReadBack objectName field.type) :
    ReadBack objectName (.object fields) := by
  refine .of_operand rfl fun rest => ?_
  have hmembers := (Reads.object (reads_members hfields h rest)).bare
  cases fields with
  | nil => exact absurd rfl hfields
  | cons field fields => simpa [chars, fieldsChars, braces] using hmembers

theorem ReadBack.union {arms : List TypeExpr} (hmany : 2 ≤ arms.length)
    (h : ∀ arm ∈ arms, ReadBack objectName arm) : ReadBack objectName (.union arms) where
  arms rest := by
    rw [chars, armsChars_eq_map, armShapes, armsShapes_eq_flatMap]
    exact reads_alternation (fun arm harm => (h arm harm).arms) rest
  operand hone := by
    rw [isAlternation, decide_eq_false_iff_not] at hone
    omega

theorem ReadBack.literals {values : List Literal} (h : ∀ l ∈ values, l.FromJson) :
    ReadBack objectName (.literals values) where
  arms rest := by
    rw [chars, armShapes, List.map_eq_flatMap (f := Literal.shape)]
    exact reads_alternation (fun l hl rest => .one (Literal.reads (h l hl) rest)) rest
  operand hone rest := by
    match values, h, hone with
    | [], _, _ => exact .bare (.word (show isIdentifier never = true by decide) rfl)
    | [l], h, _ =>
      have hliteral := Literal.reads (h l List.mem_cons_self) rest
      simpa [chars, alternation, List.intercalate, shape, armShapes, Shape.orNever, Shape.oneOf]
        using hliteral

/-- **The text of a printable type is read with its structure.** -/
theorem Printable.readBack {t : TypeExpr} (hobject : isIdentifier objectName.toList = true)
    (h : t.Printable) : ReadBack objectName t := by
  induction h with
  | scalar hname => exact .of_operand rfl (reads_word hname)
  | reference hname => exact .of_operand rfl (reads_word hname)
  | anyObject => exact .of_operand rfl (reads_word hobject)
  | array _ ih => exact ih.array
  | object hfields _ ih => exact .object hfields ih
  | union hmany _ ih => exact .union hmany ih
  | literals h => exact .literals h

/-- The fields of an interface are read line by line. -/
theorem reads_lines {fields : List (Field TypeExpr)}
    (h : ∀ field ∈ fields, ReadBack objectName field.type) (rest : List Char) :
    ReadsLines (Declaration.fieldLines objectName fields ++ '\x7d' :: '\n' :: rest)
      (fieldShapes objectName fields) rest := by
  induction fields with
  | nil => exact .close
  | cons field fields ih =>
      obtain ⟨name, type, optional⟩ := field
      have hkey := readsKey_keyChars (Field.mk name () optional)
      have htype := (h _ List.mem_cons_self).type
      have hothers := ih fun f hf => h f (List.mem_cons_of_mem _ hf)
      have hline := ReadsLines.line (hkey _) (htype _) hothers
      simpa [Declaration.fieldLines, fieldsChars, fieldShapes, shape] using hline

end TypeExpr

/-! ## Declarations -/

namespace Declaration

variable {objectName : String}

theorem reads_interface {name : String} (hname : isIdentifier name.toList = true)
    {fields : List (Field TypeExpr)} (h : ∀ field ∈ fields, field.type.ReadBack objectName)
    (rest : List Char) :
    ReadsDeclared (chars objectName ⟨name, .object fields⟩ ++ rest)
      (.interface name (TypeExpr.fieldShapes objectName fields)) rest := by
  have hlines := TypeExpr.reads_lines h rest
  cases fields with
  | nil =>
      have hempty : ReadsDeclared
          ("export interface ".toList ++ (name.toList ++ ([' ', '\x7b', '\x7d', '\n'] ++ rest)))
          _ rest := .empty hname rfl
      rw [String.ofList_toList] at hempty
      simpa [chars, TypeExpr.fieldShapes] using hempty
  | cons field fields =>
      have hinterface := ReadsDeclared.interface hname rfl hlines (by simp [TypeExpr.fieldShapes])
      rw [String.ofList_toList] at hinterface
      simpa [chars] using hinterface

theorem reads_synonym {name : String} (hname : isIdentifier name.toList = true) {t : TypeExpr}
    (h : t.ReadBack objectName) (rest : List Char) :
    ReadsDeclared
      ("export type ".toList ++ name.toList ++ " = ".toList ++ t.chars objectName ++ [';', '\n']
        ++ rest)
      (.synonym name (t.shape objectName)) rest := by
  have hsynonym := ReadsDeclared.synonym hname rfl (h.type (';' :: '\n' :: rest))
  rw [String.ofList_toList] at hsynonym
  simpa using hsynonym

/-- **The text of a declaration is read with its name and its structure.** -/
theorem Printable.reads {d : Declaration} (hobject : isIdentifier objectName.toList = true)
    (h : d.Printable) (rest : List Char) :
    ReadsDeclared (d.chars objectName ++ rest) (d.declared objectName) rest := by
  obtain ⟨name, type⟩ := d
  obtain ⟨hname, rfl | htype⟩ := h
  · exact reads_interface hname (fun _ h => absurd h List.not_mem_nil) rest
  have hread := htype.readBack hobject
  cases htype with
  | object _ hfields =>
      exact reads_interface hname (fun field hfield => (hfields field hfield).readBack hobject) rest
  | _ => exact reads_synonym hname hread rest

end Declaration

/-! ## Files -/

namespace Generated

theorem append_eq {text : List Char} (h : text ≠ []) (declaration : List Char) :
    append text declaration = text ++ '\n' :: declaration := by
  rw [append, if_neg (by simpa using h)]

theorem foldl_append_eq {text : List Char} (h : text ≠ []) (declarations : List (List Char)) :
    declarations.foldl append text = text ++ declarations.flatMap ('\n' :: ·) := by
  induction declarations generalizing text with
  | nil => simp
  | cons declaration declarations ih =>
      rw [List.foldl_cons, append_eq h, ih (by simp), List.flatMap_cons, List.append_assoc]

/-- Declarations with an empty line between them are read one after the other. -/
theorem reads_declarations {objectName : String} (hobject : isIdentifier objectName.toList = true)
    {d : Declaration} {ds : List Declaration} (hd : d.Printable) (hds : ∀ d ∈ ds, d.Printable) :
    ReadsDeclarations (d.chars objectName ++ (ds.map (Declaration.chars objectName)).flatMap ('\n' :: ·))
      ((d :: ds).map (Declaration.declared objectName)) := by
  induction ds generalizing d with
  | nil => exact .last (hd.reads hobject [])
  | cons second ds ih =>
      obtain ⟨hsecond, hds⟩ := List.forall_mem_cons.1 hds
      exact .more (hd.reads hobject _) (ih hsecond hds)

/-- The text of printable declarations is read as these declarations, with or without the banner. -/
theorem reads {g : Generated} (hobject : isIdentifier g.objectName.toList = true)
    (h : ∀ d ∈ g.declarations, d.Printable) :
    ReadsFile g.chars g.header (g.declarations.map (Declaration.declared g.objectName)) := by
  -- of the banner only its first character matters
  obtain ⟨tail, htail⟩ := banner_eq_cons
  unfold chars
  rw [htail]
  cases hdeclarations : g.declarations with
  | nil =>
      cases g.header with
      | false => exact .empty
      | true => exact .banner htail.symm
  | cons d ds =>
      rw [hdeclarations] at h
      obtain ⟨hd, hds⟩ := List.forall_mem_cons.1 h
      have hread := reads_declarations hobject hd hds
      cases g.header with
      | false =>
          have hne : d.chars g.objectName ≠ [] := by
            intro hnil
            have hstart := (ReadsDeclarations.last (hd.reads hobject [])).start
            rw [hnil] at hstart
            cases hstart
          rw [← foldl_append_eq hne] at hread
          exact .bare hread
      | true =>
          refine .bannered ?_ hread
          rw [htail, if_pos rfl, foldl_append_eq (List.cons_ne_nil _ _)]
          rfl

end Generated

/-- **A generated file is read back in one way, as its declarations:** one for each name of the registry,
    in registry order, with the structure of its type, behind the banner if it is wanted. -/
theorem generate_readsFile_iff {registry : Registry} {options : Options} {g : Generated}
    (hregistry : registry.WellNamed) (hoptions : options.WellNamed)
    (h : generate registry options = .ok g) :
    g.declarations.map (·.name) = registry.entries.names ∧
      ∀ header ds, ReadsFile g.text.toList header ds ↔
        header = options.header ∧
          ds = g.declarations.map (Declaration.declared options.objectName) := by
  obtain ⟨hobject, hheader, hnames, hprintable⟩ := generate_printable hregistry hoptions h
  have hread := Generated.reads (hobject ▸ hoptions.object) hprintable
  rw [hheader, hobject] at hread
  refine ⟨hnames, fun header ds => ?_⟩
  rw [Generated.text, String.toList_ofList]
  constructor
  · intro hread'
    exact hread'.unique hread
  · rintro ⟨rfl, rfl⟩
    exact hread

/-- A definition with a key that is no identifier and a list of alternatives, and a choice of literals, among
    them `7` and `1.5`. -/
def peopleRegistry : Registry where
  instances :=
    [.schema { rules :=
      [("full name", { candidates := [.scalar .text], candidates_ne_nil := List.cons_ne_nil _ _ }),
       ("tags", { candidates := [.array], candidates_ne_nil := List.cons_ne_nil _ _,
                  optionality := .constant true }),
       ("tags.$", { candidates := [.scalar .integer, .nested ⟨1⟩],
                    candidates_ne_nil := List.cons_ne_nil _ _ })] },
     .values [.literal (.text "a | b"), .literal (.number (.finite (.ofInt 7))),
       .literal (.number (.finite (.ofIntWithPrec 3 1))), .literal .null]]
  entries := [("Person", ⟨0⟩), ("Status", ⟨1⟩)]

/-- `full name: string` and `tags?: (number | Status)[]` are read back, and so is
    `"a | b" | 7 | 1.5 | null`. -/
theorem generate_people_readsFile_iff : ∃ g, generate peopleRegistry {} = .ok g ∧
    g.declarations.map (·.name) = ["Person", "Status"] ∧
      ∀ header ds, ReadsFile g.text.toList header ds ↔
        header = true ∧ ds =
          [.interface "Person" [⟨"full name", .word "string", false⟩,
            ⟨"tags", .array (.alternation [.word "number", .word "Status"]), true⟩],
           .synonym "Status" (.alternation [.text "a | b", .numeral (.finite (.ofInt 7)),
             .numeral (.finite (.ofIntWithPrec 3 1)), .word "null"])] := by
  have hregistry : peopleRegistry.WellNamed := by
    refine ⟨by decide, fun d hd => ?_, fun values hvalues l hl => ?_⟩
    · simp only [peopleRegistry, List.mem_cons, Instance.schema.injEq, reduceCtorEq, or_false,
        List.not_mem_nil] at hd
      subst hd
      intro entry hentry name hname
      simp only [List.mem_cons, List.not_mem_nil, or_false] at hentry
      rcases hentry with rfl | rfl | rfl <;> cases hname
    · simp only [peopleRegistry, List.mem_cons, Instance.values.injEq, reduceCtorEq, false_or,
        List.not_mem_nil, or_false] at hvalues
      subst hvalues
      simp only [List.mem_cons, EnumValue.literal.injEq, List.not_mem_nil, or_false] at hl
      rcases hl with rfl | rfl | rfl | rfl
      · exact Literal.fromJson_iff.2 trivial
      · exact Literal.fromJson_iff.2 ⟨.ofInt 7, rfl, 7, 0, by decide, by decide, by decide, rfl⟩
      · exact Literal.fromJson_iff.2
          ⟨.ofIntWithPrec 3 1, rfl, 3, -1, by decide, by decide, by decide, rfl⟩
      · exact Literal.fromJson_iff.2 trivial
  have hoptions : ({} : Options).WellNamed := ⟨fun kind => by cases kind <;> decide, by decide⟩
  exact ⟨_, rfl, generate_readsFile_iff hregistry hoptions rfl⟩

end SchemaTyping
