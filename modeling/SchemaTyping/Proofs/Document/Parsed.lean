import SchemaTyping.Proofs.Document.Texts
import SchemaTyping.Proofs.Json.Agreement

set_option autoImplicit false

/-! # Loading a text and loading its value

A document is a record, so it is read off a text as from the value of the text, unless the text writes one
of the tables twice (`Document.reader_agrees`). Both ways stop at the same depth, and the keys that a text
writes do not depend on how deep it may go. -/

namespace SchemaTyping

open Json.Reader (bind_eq_ok)

namespace Document

/-- Bodies read off a text are those of its value. -/
theorem bodiesReader_agrees {cs rest : List Char} {j : Json}
    (hj : Json.reader (bodyLevels + 1) cs = .ok (j, rest)) (table : Table Json) (rest' : List Char) :
    bodiesReader cs = .ok (table, rest') ↔ rest' = rest ∧ bodiesOfJson j = .ok table := by
  obtain ⟨c, tail, hcs, -⟩ := Json.Reader.exists_of_ahead (fun h => by cases h) hj
  by_cases hobject : c = '\x7b'
  · subst hobject
    rw [Json.reader, Json.readerWith_object hcs] at hj
    obtain ⟨t, _, ht, hj⟩ := bind_eq_ok.1 hj
    cases hj
    rw [bodiesReader_object hcs, ht]
    simp [bodiesOfJson, eq_comm, and_comm]
  · constructor
    · intro h
      obtain ⟨tail', hcs'⟩ := exists_of_bodiesReader h
      cases hcs.symm.trans hcs'
      exact absurd rfl hobject
    · rintro ⟨-, h⟩
      unfold bodiesOfJson at h
      split at h
      · next members => exact absurd rfl (Json.ne_object_of_ne hcs hobject hj members)
      · cases h

theorem field_agrees : Json.FieldAgrees (bodyLevels + 1)
    (fun d field => do
      let table ← bodiesReader
      return d.withField field table)
    fun d field value => do
      let table ← bodiesOfJson value
      return Document.withField d field table := by
  intro d field cs j rest hj d' rest'
  constructor
  · intro h
    obtain ⟨table, mid, htable, h⟩ := bind_eq_ok.1 h
    cases h
    obtain ⟨rfl, hvalue⟩ := (bodiesReader_agrees hj _ _).1 htable
    exact ⟨rfl, Outcome.bind_eq_ok.2 ⟨table, hvalue, rfl⟩⟩
  · rintro ⟨rfl, h⟩
    obtain ⟨table, hvalue, h⟩ := Outcome.bind_eq_ok.1 h
    cases h
    exact bind_eq_ok.2 ⟨table, rest', (bodiesReader_agrees hj _ _).2 ⟨rfl, hvalue⟩, rfl⟩

/-- A document read off a text is that of its value, if neither of its tables is written twice. -/
theorem reader_agrees {cs rest : List Char} {j : Json}
    (hj : Json.reader Json.maxLevels cs = .ok (j, rest))
    (hcount : ∀ name ∈ fieldNames, (Json.writtenKeys (bodyLevels + 1) cs).count name ≤ 1) (d : Document)
    (rest' : List Char) :
    reader cs = .ok (d, rest') ↔ rest' = rest ∧ ofJson j = .ok d := by
  rw [ofJson, Outcome.mapError_eq_ok]
  exact Json.recordReader_agrees field_agrees hj hcount _ _ _ _

theorem ofText_eq_ok {text : String} {d : Document} :
    ofText text = .ok d ↔ ∃ rest, reader text.toList = .ok (d, rest) := by
  unfold ofText
  rw [StateT.run]
  constructor
  · intro h
    split at h
    · next hread =>
        cases h
        exact ⟨_, hread⟩
    · cases h
  · rintro ⟨rest, hread⟩
    rw [hread]

theorem exists_parse_of_ofText {text : String} {e : DocumentError} (h : ofText text = .error e) :
    ∃ p, e = .parse p := by
  unfold ofText at h
  split at h
  · cases h
  · cases h
    exact ⟨_, rfl⟩

theorem exists_parse_of_ofJson {j : Json} {e : DocumentError} (h : ofJson j = .error e) :
    ∃ p, e = .parse p := by
  obtain ⟨p, -, rfl⟩ := Outcome.mapError_eq_error.1 h
  exact ⟨p, rfl⟩

/-- The document that a text starts with is that of its value. -/
theorem ofText_agrees {levels : Nat} {text : String} {j : Json}
    (hwhole : Json.ofTextWithin levels text = .ok j)
    (honce : ∀ name ∈ fieldNames, (Json.writtenKeys levels text.toList).count name ≤ 1) (d : Document) :
    ofText text = .ok d ↔ ∃ j, Json.ofText text = .ok j ∧ ofJson j = .ok d := by
  obtain ⟨rest, hj, hblank⟩ := Json.ofTextWithin_eq_ok.1 hwhole
  -- both levels read the same, so the keys that are written are the same
  have hagrees {j' : Json} {rest' : List Char}
      (hj' : Json.reader Json.maxLevels text.toList = .ok (j', rest')) : rest' = rest ∧ ∀ name ∈ fieldNames,
        (Json.writtenKeys (bodyLevels + 1) text.toList).count name ≤ 1 := by
    obtain ⟨_, hmost, rfl⟩ := Json.reader_follows (Nat.le_max_left levels Json.maxLevels) _ _ _ hj
    obtain ⟨_, hmost', rfl⟩ := Json.reader_follows (Nat.le_max_right levels Json.maxLevels) _ _ _ hj'
    cases hmost.symm.trans hmost'
    obtain ⟨_, hmore, -⟩ := Json.reader_follows (Nat.le_succ levels) _ _ _ hj
    have hkeys := Json.writtenKeys_of_le hmore (Nat.le_max_left levels (bodyLevels + 1))
    rw [Json.writtenKeys_of_le hj' (Nat.le_max_right levels (bodyLevels + 1))] at hkeys
    exact ⟨rfl, hkeys ▸ honce⟩
  rw [ofText_eq_ok]
  constructor
  · rintro ⟨rest', hread⟩
    obtain ⟨j', hj', -⟩ := takesValue_reader _ _ _ hread
    obtain ⟨rfl, hcount⟩ := hagrees hj'
    exact ⟨j', Json.ofTextWithin_eq_ok.2 ⟨_, hj', hblank⟩, ((reader_agrees hj' hcount _ _).1 hread).2⟩
  · rintro ⟨j', hj', hvalue⟩
    obtain ⟨rest', hj', -⟩ := Json.ofTextWithin_eq_ok.1 hj'
    obtain ⟨rfl, hcount⟩ := hagrees hj'
    exact ⟨rest', (reader_agrees hj' hcount _ _).2 ⟨rfl, hvalue⟩⟩

end Document

namespace Loader

/-- Parse a text and load the value that it is. -/
def loadParsed (l : Loader) (text : String) : Except DocumentError Unit × Loader :=
  match Json.ofText text with
  | .ok j => l.loadJson j
  | .error p => (.error (.parse p), l)

/-- Parse a text and load the part of its value that a pointer selects. -/
def loadSelected (l : Loader) (pointer text : String) : Except DocumentError Unit × Loader :=
  match Json.ofText text with
  | .ok j =>
    match Document.select pointer j with
    | .ok part => l.loadJson part
    | .error e => (.error e, l)
  | .error p => (.error (.parse p), l)

/-- **Loading a text and loading its value agree.** For every text that is one value as a whole, however
    deep, and that writes neither table of the document twice, a loader takes the text exactly when it
    takes the value that the text is parsed to, the loaders left are the same, and so is every error but
    for those of parsing. -/
theorem loadText_agrees (l : Loader) {levels : Nat} {text : String} {j : Json}
    (hwhole : Json.ofTextWithin levels text = .ok j)
    (honce : ∀ name ∈ Document.fieldNames, (Json.writtenKeys levels text.toList).count name ≤ 1) :
    ((l.loadText text).1 = .ok () ↔ (l.loadParsed text).1 = .ok ()) ∧
      (l.loadText text).2 = (l.loadParsed text).2 ∧
      (∀ e, (∀ p, e ≠ .parse p) → ((l.loadText text).1 = .error e ↔ (l.loadParsed text).1 = .error e)) ∧
      l.loadSelected "" text = l.loadParsed text := by
  have hagrees := Document.ofText_agrees hwhole honce
  have hselected : l.loadSelected "" text = l.loadParsed text := rfl
  cases hdocument : Document.ofText text with
  | ok d =>
      obtain ⟨j', hj', hvalue⟩ := (hagrees d).1 hdocument
      have hsame : l.loadText text = l.loadParsed text := by
        simp only [loadText, loadParsed, loadJson, hdocument, hj', hvalue]
      exact ⟨by rw [hsame], by rw [hsame], fun e _ => by rw [hsame], hselected⟩
  | error e =>
      obtain ⟨p, rfl⟩ := Document.exists_parse_of_ofText hdocument
      have hdirect : l.loadText text = (.error (.parse p), l) := by
        simp only [loadText, hdocument]
      obtain ⟨p', hparsed⟩ : ∃ p', l.loadParsed text = (.error (.parse p'), l) := by
        unfold loadParsed
        split
        · next j' hj' =>
            cases hvalue : Document.ofJson j' with
            | ok d => cases hdocument.symm.trans ((hagrees d).2 ⟨j', hj', hvalue⟩)
            | error e =>
                obtain ⟨p', rfl⟩ := Document.exists_parse_of_ofJson hvalue
                exact ⟨p', by simp only [loadJson, hvalue]⟩
        · exact ⟨_, rfl⟩
      rw [hselected, hdirect, hparsed]
      refine ⟨by simp, rfl, fun e he => ?_, rfl⟩
      constructor
      · intro h
        cases h
        exact absurd rfl (he p)
      · intro h
        cases h
        exact absurd rfl (he p')

/-- A text with an unknown reference, which is found when the value has long been parsed. -/
def danglingText : String :=
  "\x7b\"schemas\": \x7b\"A\": \x7b\"b\": \x7b\"$ref\": \"B\"\x7d\x7d\x7d\x7d"

theorem loadText_danglingText :
    (loadText { options := {} } danglingText).1 = .error (.unknownRef "schemas.A.b" "B") ∧
      (loadParsed { options := {} } danglingText).1 = .error (.unknownRef "schemas.A.b" "B") ∧
      (loadText { options := {} } danglingText).2 = (loadParsed { options := {} } danglingText).2 := by
  have hok : (Json.ofTextWithin 4 danglingText).isOk = true := by decide +kernel
  obtain ⟨j, hwhole⟩ : ∃ j, Json.ofTextWithin 4 danglingText = .ok j := by
    cases hread : Json.ofTextWithin 4 danglingText with
    | ok j => exact ⟨j, rfl⟩
    | error p =>
        rw [hread] at hok
        cases hok
  obtain ⟨-, hsame, herror, -⟩ := loadText_agrees { options := {} } hwhole (by decide +kernel)
  have hparsed : (loadParsed { options := {} } danglingText).1 = .error (.unknownRef "schemas.A.b" "B") := by
    decide +kernel
  exact ⟨(herror _ (by simp)).2 hparsed, hparsed, hsame⟩

end Loader

end SchemaTyping
