import SchemaTyping.Proofs.Json.Integers
import SchemaTyping.Proofs.Json.Quoting
import SchemaTyping.Proofs.Json.Shapes

set_option autoImplicit false

/-! # Texts of scalars

A text that is a single scalar has no other layout than blanks around it. A word, a string or an integer of at
most 64 bits that `Json.compact` has written is the whole text of a value, and is read as that value at any
level (`Json.ofText_compact`). -/

namespace SchemaTyping.Json

open Reader

/-- Null, a boolean, a string, or an integer of at most 64 bits. -/
def IsPlain : Json → Prop
  | .null => True
  | .boolean _ => True
  | .number (.integer i) => (Number.integer i).Proper
  | .text _ => True
  | _ => False

/-- No blank stands in front of an integer. -/
theorem dropWhile_chars_integer (i : Int) :
    (Number.integer i).chars.dropWhile isBlank = (Number.integer i).chars := by
  rw [chars_integer]
  by_cases hi : i < 0
  · rw [if_pos hi]
    rfl
  · obtain ⟨c, ds, hds, hc⟩ := exists_digits i.natAbs
    rw [if_neg hi, List.nil_append, hds]
    simp [isBlank_of_isDigit hc]

theorem readerWith_compactChars {j : Json} (h : j.IsPlain) (nested : Option (Reader Json)) :
    readerWith nested (compactChars j) = .ok (j, []) := by
  cases j with
  | null => rfl
  | boolean b => cases b <;> rfl
  | number n =>
      cases n with
      | integer i =>
          have hlead : (compactChars (.number (.integer i))).dropWhile isBlank
              = (Number.integer i).chars ++ [] := by
            rw [List.append_nil, compactChars, dropWhile_chars_integer]
          exact readerWith_integer h hlead (fun c hc => by cases hc) nested
      | _ => exact h.elim
  | text s =>
      obtain ⟨tail, hquoted, hread⟩ := quotedChars_append s []
      have hstart : (quotedChars s).dropWhile isBlank = '"' :: tail := by
        rw [List.append_nil] at hquoted
        rw [hquoted]
        rfl
      rw [compactChars, readerWith_text hstart]
      refine bind_eq_ok.2 ⟨s.toList, [], scan_eq_ok.2 hread, ?_⟩
      rw [String.ofList_toList]
      rfl
  | _ => exact h.elim

theorem reader_compactChars {j : Json} (h : j.IsPlain) (levels : Nat) :
    reader levels (compactChars j) = .ok (j, []) := by
  cases levels <;> exact readerWith_compactChars h _

/-- **A plain scalar is read back** from its text. -/
theorem ofText_compact {j : Json} (h : j.IsPlain) : ofText j.compact = .ok j := by
  rw [ofText, ofTextWithin, compact, String.toList_ofList, StateT.run, reader_compactChars h]
  rfl

end SchemaTyping.Json
