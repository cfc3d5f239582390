import SchemaTyping.Proofs.Grammar.Unambiguous
import SchemaTyping.Proofs.Json.Scalars

set_option autoImplicit false

/-! # Keys read back

The key of a field is its name, bare or between quotes, and a question mark if the field is optional. A quoted
name ends with its quote and an identifier holds no question mark, so one at the end of a key is always the
mark. `readKey?` takes it off and reads what is left, which gives the name and the mark back for every text
that a name can be (`Field.readKey?_keyChars`). -/

namespace SchemaTyping

/-! ## Identifiers -/

/-- A letter of ASCII. -/
def IsLetter (c : Char) : Prop := ('A' ≤ c ∧ c ≤ 'Z') ∨ ('a' ≤ c ∧ c ≤ 'z')

/-- A text that can stand for itself: a letter, `_` or `$`, and then letters, digits, `_` and `$`, of ASCII,
    up to the end. -/
def IsBareName (name : String) : Prop :=
  ∃ first rest, name.toList = first :: rest ∧ (IsLetter first ∨ first = '_' ∨ first = '$') ∧
    ∀ c ∈ rest, IsLetter c ∨ ('0' ≤ c ∧ c ≤ '9') ∨ c = '_' ∨ c = '$'

theorem isAlpha_iff {c : Char} : c.isAlpha = true ↔ IsLetter c := by
  have hupper : c.isUpper = true ↔ 'A' ≤ c ∧ c ≤ 'Z' := decide_eq_true_iff
  have hlower : c.isLower = (decide ('a' ≤ c) && decide (c ≤ 'z')) := rfl
  have halpha : c.isAlpha = (c.isUpper || c.isLower) := rfl
  rw [halpha, Bool.or_eq_true, hupper, hlower, Bool.and_eq_true, decide_eq_true_iff, decide_eq_true_iff,
    IsLetter]

theorem isDigit_iff {c : Char} : c.isDigit = true ↔ '0' ≤ c ∧ c ≤ '9' := by
  have hdigit : c.isDigit = (decide ('0' ≤ c) && decide (c ≤ '9')) := rfl
  rw [hdigit, Bool.and_eq_true, decide_eq_true_iff, decide_eq_true_iff]

theorem isIdentifier_iff {name : String} : isIdentifier name.toList = true ↔ IsBareName name := by
  unfold IsBareName
  cases name.toList with
  | nil => simp [isIdentifier]
  | cons first rest =>
      simp only [isIdentifier, isIdentifierStart, isIdentifierPart, Char.isAlphanum, Bool.and_eq_true,
        Bool.or_eq_true, decide_eq_true_eq, List.all_eq_true, isAlpha_iff, isDigit_iff, or_assoc]
      constructor
      · rintro ⟨hfirst, hrest⟩
        exact ⟨first, rest, rfl, hfirst, hrest⟩
      · rintro ⟨_, _, heq, hfirst, hrest⟩
        cases heq
        exact ⟨hfirst, hrest⟩

/-! ## Reading keys -/

/-- The name that is written so: an identifier stands for itself, anything else is a JSON string. -/
def readName? (cs : List Char) : Option String :=
  if isIdentifier cs then some (String.ofList cs)
  else match Json.ofText (String.ofList cs) with
    | .ok (.text name) => some name
    | _ => none

/-- The name and the mark of the field with this key. -/
def readKey? (cs : List Char) : Option (String × Bool) :=
  if cs.getLast? = some '?' then (readName? cs.dropLast).map fun name => (name, true)
  else (readName? cs).map fun name => (name, false)

namespace Field

variable {τ υ : Type}

/-- The question mark of an optional field. -/
def mark (f : Field τ) : List Char := if f.optional then ['?'] else []

/-- The name in the key of a field: bare if it is an identifier, quoted if not. -/
def nameChars (f : Field τ) : List Char :=
  if isIdentifier f.name.toList then f.name.toList else Json.quotedChars f.name

theorem keyChars_eq (f : Field τ) : f.keyChars = f.nameChars ++ f.mark := rfl

theorem isIdentifier_quotedChars (s : String) : isIdentifier (Json.quotedChars s) = false := rfl

theorem readName?_nameChars (f : Field τ) : readName? f.nameChars = some f.name := by
  unfold nameChars
  split
  · next hname => rw [readName?, if_pos hname, String.ofList_toList]
  · next hname =>
      have hread : Json.ofText (String.ofList (Json.quotedChars f.name)) = .ok (.text f.name) :=
        Json.ofText_compact (j := .text f.name) trivial
      rw [readName?, isIdentifier_quotedChars, hread]
      rfl

/-- A name, bare or quoted, does not end with a question mark. -/
theorem getLast?_nameChars (f : Field τ) : f.nameChars.getLast? ≠ some '?' := by
  unfold nameChars
  split
  · next hname =>
      intro hlast
      have hpart := Grammar.parts_of_isIdentifier hname '?' (List.mem_of_getLast? hlast)
      exact absurd hpart (by decide)
  · rw [Json.quotedChars, ← List.cons_append, List.getLast?_concat]
    decide

theorem readKey?_keyChars (f : Field τ) : readKey? f.keyChars = some (f.name, f.optional) := by
  rw [keyChars_eq, readKey?, mark]
  cases f.optional with
  | false =>
      rw [if_neg Bool.false_ne_true, List.append_nil, if_neg f.getLast?_nameChars, readName?_nameChars]
      rfl
  | true =>
      rw [if_pos rfl, List.getLast?_concat, if_pos rfl, List.dropLast_concat, readName?_nameChars]
      rfl

/-- Quotes come on top of what they stand around. -/
theorem quotedChars_ne (s : String) : Json.quotedChars s ≠ s.toList := by
  intro h
  have hsame := congrArg List.length h
  have hshort := Json.length_le_flatMap_escapeChar s.toList
  simp only [Json.quotedChars, List.length_cons, List.length_append] at hsame
  omega

theorem nameChars_eq_iff (f : Field τ) : f.nameChars = f.name.toList ↔ IsBareName f.name := by
  rw [← isIdentifier_iff, nameChars]
  split
  · next hname => exact iff_of_true rfl hname
  · next hname => exact iff_of_false (quotedChars_ne _) hname

/-- **Keys are faithful.** A key is read back as the name and the mark of its field, so that fields with the
    same key have both in common, and the name stands in it bare exactly when it can stand for itself. -/
theorem keys_are_faithful (f : Field τ) (g : Field υ) :
    (f.keyChars = g.keyChars ↔ f.name = g.name ∧ f.optional = g.optional) ∧
      readKey? f.keyChars = some (f.name, f.optional) ∧
      (f.keyChars = f.name.toList ++ f.mark ↔ IsBareName f.name) := by
  refine ⟨⟨fun h => ?_, ?_⟩, f.readKey?_keyChars, ?_⟩
  · have hread := f.readKey?_keyChars
    rw [h, g.readKey?_keyChars] at hread
    simpa [eq_comm] using hread
  · rintro ⟨hname, hoptional⟩
    rw [keyChars_eq, keyChars_eq, nameChars, nameChars, mark, mark, hname, hoptional]
  · rw [keyChars_eq, List.append_left_inj, nameChars_eq_iff]

end Field

end SchemaTyping
