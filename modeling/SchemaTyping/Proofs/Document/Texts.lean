import SchemaTyping.Proofs.Document.Loading
import SchemaTyping.Proofs.Json.Shapes

set_option autoImplicit false

/-! # What a text has to be

A document is read off the front of a text, and so are options. Both are records, so what is taken off the
text is a whole value, and since a record ends with a character of its own, nothing behind that value has
any part in the result (`accepted_startsWithValue`). -/

namespace SchemaTyping

open Json (Reader TakesValue)
open Json.Reader (Local Closed Advances isBlank)

/-! ## Readers -/

namespace Document

theorem closed_bodiesReader : Closed bodiesReader := by
  refine Json.Reader.closed_ahead ⟨Json.mismatch_ne_ok _ _, fun c => ?_⟩
  by_cases hobject : c = '\x7b'
  · subst hobject
    exact Json.Reader.from_take (Json.Reader.closed_bind Json.Reader.closed_one.local fun _ =>
      Json.closed_tableOf (Json.advances_reader _).isLocal)
  · refine Json.Reader.from_of_eq (Json.closed_of_ne_ok (Json.mismatch_ne_ok "a map")) fun rest => ?_
    split
    · simp_all
    · rfl

theorem bodiesReader_object {cs tail : List Char} (h : cs.dropWhile isBlank = '\x7b' :: tail) :
    bodiesReader cs = Json.tableOf (Json.reader bodyLevels) tail := by
  rw [bodiesReader, Json.Reader.ahead_bind, h]
  rfl

theorem exists_of_bodiesReader {cs : List Char} {r : Table Json × List Char} (h : bodiesReader cs = .ok r) :
    ∃ tail, cs.dropWhile isBlank = '\x7b' :: tail := by
  obtain ⟨c, tail, hcs, h⟩ := Json.Reader.exists_of_ahead (Json.mismatch_ne_ok _ _ _) h
  by_cases hobject : c = '\x7b'
  · exact ⟨tail, by rw [hcs, hobject]⟩
  · exact absurd (by simpa [hobject] using h) (Json.mismatch_ne_ok "a map" (c :: tail) r)

theorem takesValue_bodiesReader : TakesValue (bodyLevels + 1) bodiesReader := by
  intro cs table rest h
  obtain ⟨tail, hcs⟩ := exists_of_bodiesReader h
  rw [bodiesReader_object hcs] at h
  refine ⟨.object table, ?_, trivial⟩
  rw [Json.reader, Json.readerWith_object hcs]
  exact Json.Reader.bind_eq_ok.2 ⟨table, rest, h, rfl⟩

theorem closed_reader : Closed reader :=
  Json.closed_recordReader (fun _ _ =>
    Json.Reader.local_bind closed_bodiesReader.local fun _ => Json.Reader.local_pure _) _ _

theorem takesValue_reader : TakesValue Json.maxLevels reader := by
  have hfield (d : Document) (field : String) :
      TakesValue (bodyLevels + 1) (do return d.withField field (← bodiesReader)) :=
    takesValue_bodiesReader.map _
  exact Json.takesValue_recordReader hfield _ _

end Document

theorem ScalarNames.local_readField (names : ScalarNames) (field : String) : Local (names.readField field) :=
  Json.Reader.local_bind Json.closed_stringReader.local fun _ => Json.Reader.local_pure _

theorem ScalarNames.takesValue_reader (levels : Nat) : TakesValue (levels + 1) ScalarNames.reader :=
  Json.takesValue_recordReader (fun _ _ => (Json.takesValue_stringReader levels).map _) _ _

namespace Options

theorem local_readField (o : Options) (field : String) : Local (o.readField field) := by
  have hmap {α : Type} {m : Reader α} (hm : Local m) (f : α → Options) : Local (do return f (← m)) :=
    Json.Reader.local_bind hm fun _ => Json.Reader.local_pure _
  unfold readField
  split
  · exact hmap Json.closed_stringReader.local _
  · exact hmap Json.closed_stringReader.local _
  · exact hmap (Json.closed_recordReader ScalarNames.local_readField _ _).local _
  · exact hmap Json.closed_stringReader.local _
  · exact hmap (Json.closed_choiceReader _).local _
  · exact hmap (Json.closed_choiceReader _).local _
  · exact hmap Json.advances_countReader.isLocal _
  · exact hmap Json.advances_boolReader.isLocal _

theorem takesValue_readField (levels : Nat) (o : Options) (field : String) :
    TakesValue (levels + 1) (o.readField field) := by
  unfold readField
  split
  · exact (Json.takesValue_stringReader _).map _
  · exact (Json.takesValue_stringReader _).map _
  · exact (ScalarNames.takesValue_reader levels).map _
  · exact (Json.takesValue_stringReader _).map _
  · exact (Json.takesValue_choiceReader _ levels).map _
  · exact (Json.takesValue_choiceReader _ levels).map _
  · exact (Json.takesValue_countReader _).map _
  · exact (Json.takesValue_boolReader _).map _

theorem closed_reader : Closed reader := Json.closed_recordReader local_readField _ _

theorem takesValue_reader : TakesValue Json.maxLevels reader :=
  Json.takesValue_recordReader (takesValue_readField _) _ _

end Options

/-! ## Texts -/

/-- A whole text is a value when nothing but blanks follow the value that it starts with. -/
theorem Json.ofTextWithin_eq_ok {levels : Nat} {text : String} {j : Json} :
    Json.ofTextWithin levels text = .ok j ↔
      ∃ rest, Json.reader levels text.toList = .ok (j, rest) ∧ ∀ c ∈ rest, isBlank c := by
  rw [Json.ofTextWithin, Outcome.bind_eq_ok]
  constructor
  · rintro ⟨⟨value, rest⟩, hread, h⟩
    dsimp only at h
    split at h
    · next hblank =>
        cases h
        exact ⟨rest, hread, List.dropWhile_eq_nil_iff.1 (List.isEmpty_iff.1 hblank)⟩
    · cases h
  · rintro ⟨rest, hread, hblank⟩
    refine ⟨(j, rest), hread, ?_⟩
    simp [List.dropWhile_eq_nil_iff.2 hblank]

theorem Json.exists_ofText_iff {text : String} {j : Json} {rest : List Char}
    (h : Json.reader Json.maxLevels text.toList = .ok (j, rest)) :
    (∃ j, Json.ofText text = .ok j) ↔ ∀ c ∈ rest, isBlank c := by
  constructor
  · rintro ⟨j', hwhole⟩
    obtain ⟨rest', hread, hblank⟩ := Json.ofTextWithin_eq_ok.1 hwhole
    cases h.symm.trans hread
    exact hblank
  · exact fun hblank => ⟨j, Json.ofTextWithin_eq_ok.2 ⟨rest, h, hblank⟩⟩

/-- The text starts with a whole value, with nothing but blanks behind it if the text is a whole value
    too, and what is read from the text is what is read from that value, whatever comes behind it. -/
def StartsWithValue {α : Type} (read : String → α) (text : String) : Prop :=
  ∃ front back, text = front ++ back ∧ (∃ j, Json.ofText front = .ok j) ∧
    ((∃ j, Json.ofText text = .ok j) ↔ ∀ c ∈ back.toList, isBlank c) ∧
    ∀ other, read (front ++ other) = read text

theorem startsWithValue_of_closed {α β : Type} {m : Reader α} {read : String → β} (hclosed : Closed m)
    (hvalue : TakesValue Json.maxLevels m)
    (hread : ∀ text text' a rest rest', m text.toList = .ok (a, rest) → m text'.toList = .ok (a, rest') →
      read text = read text')
    {text : String} {a : α} {rest : List Char} (h : m text.toList = .ok (a, rest)) :
    StartsWithValue read text := by
  obtain ⟨front, -, htext, hfront⟩ := hclosed _ _ _ h
  have hwhole : m (String.ofList front).toList = .ok (a, []) := by simpa using hfront []
  obtain ⟨j, hj, -⟩ := hvalue _ _ _ hwhole
  obtain ⟨j', hj', -⟩ := hvalue _ _ _ h
  refine ⟨String.ofList front, String.ofList rest, ?_, ?_, ?_, fun other => ?_⟩
  · rw [← String.ofList_append, ← htext, String.ofList_toList]
  · exact (Json.exists_ofText_iff hj).2 (by simp)
  · rw [String.toList_ofList]
    exact Json.exists_ofText_iff hj'
  · refine hread _ _ a other.toList rest ?_ h
    rw [String.toList_append, String.toList_ofList]
    exact hfront _

/-! ## What is accepted -/

/-- **What is accepted starts with a whole value.** Every text that is loaded as a document, and every text
    that is read as options, starts with one whole value. What comes behind that value has no influence;
    the text as a whole is a value exactly when it is nothing but blanks. -/
theorem accepted_startsWithValue (text : String) :
    (∀ l : Loader, (l.loadText text).1 = .ok () → StartsWithValue l.loadText text) ∧
      ∀ o, Options.ofText text = .ok o → StartsWithValue Options.ofText text := by
  constructor
  · intro l hload
    cases hread : Document.reader text.toList with
    | error p => simp [Loader.loadText, Document.ofText, StateT.run, hread] at hload
    | ok result =>
        obtain ⟨d, rest⟩ := result
        refine startsWithValue_of_closed Document.closed_reader Document.takesValue_reader ?_ hread
        intro text text' d rest rest' h h'
        simp only [Loader.loadText, Document.ofText, StateT.run, h, h']
  · intro o ho
    cases hread : Options.reader text.toList with
    | error p => simp [Options.ofText, Options.ofTextUnchecked, StateT.run, hread, bind, Except.bind] at ho
    | ok result =>
        obtain ⟨o, rest⟩ := result
        refine startsWithValue_of_closed Options.closed_reader Options.takesValue_reader ?_ hread
        intro text text' o rest rest' h h'
        simp only [Options.ofText, Options.ofTextUnchecked, StateT.run, h, h']

/-- An empty document with something behind it. -/
def trailingText : String := "\x7b\x7d x"

theorem trailingText_startsWithValue :
    StartsWithValue (Loader.loadText { options := {} }) trailingText ∧
      StartsWithValue Options.ofText trailingText := by
  obtain ⟨hdocument, hoptions⟩ := accepted_startsWithValue trailingText
  exact ⟨hdocument _ (by decide +kernel), hoptions {} (by decide +kernel)⟩

/-- It is loaded and read as options, and it is no value. -/
theorem trailing_text_is_accepted :
    (Loader.loadText { options := {} } trailingText).1 = .ok () ∧
      Options.ofText trailingText = .ok {} ∧
      Json.ofText trailingText = .error ⟨[], .malformed .trailingCharacters⟩ :=
  ⟨by decide +kernel, by decide +kernel, rfl⟩

end SchemaTyping
