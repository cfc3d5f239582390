import SchemaTyping.Json.Reading
import SchemaTyping.Json.Writing

set_option autoImplicit false

/-! # Quoted strings read back

Every character is read back from its form between quotes, whether it is escaped or not, so a string
between quotes is read back whole, whatever follows it. -/

namespace SchemaTyping.Json

/-- The code of a control character in four hexadecimal digits is read back, and is no surrogate. -/
theorem hexUnit?_controls :
    ∀ n < 0x20, hexUnit? '0' '0' (hexDigit (n / 16)) (hexDigit (n % 16)) = some n ∧
      isLowSurrogate n = false ∧ isHighSurrogate n = false := by
  decide

theorem readText_escapeChar (c : Char) (cs : List Char) :
    readText (escapeChar c ++ cs) = (readText cs).map fun (s, rest) => (c :: s, rest) := by
  have hletter : ∀ e, e ≠ 'u' → letterEscape? e = some c →
      readText ('\\' :: e :: cs) = (readText cs).map fun (s, rest) => (c :: s, rest) := by
    intro e he hescape
    rw [readText.eq_def]
    simp [he, hescape]
  unfold escapeChar
  split
  · next h => subst h; exact hletter _ (by decide) rfl
  split
  · next h => subst h; exact hletter _ (by decide) rfl
  split
  · next h => subst h; exact hletter _ (by decide) rfl
  split
  · next h => subst h; exact hletter _ (by decide) rfl
  split
  · next h => subst h; exact hletter _ (by decide) rfl
  split
  · next h => subst h; exact hletter _ (by decide) rfl
  split
  · next h => subst h; exact hletter _ (by decide) rfl
  next hquote hbackslash _ _ _ _ _ =>
  split
  · next h =>
      obtain ⟨hunit, hlow, hhigh⟩ := hexUnit?_controls c.toNat h
      rw [readText.eq_def]
      simp [hunit, hlow, hhigh, Char.ofNat_toNat]
  · next h =>
      rw [readText.eq_def]
      simp [hquote, hbackslash, h]

theorem readText_flatMap_escapeChar (content rest : List Char) :
    readText (content.flatMap escapeChar ++ '"' :: rest) = .ok (content, rest) := by
  induction content with
  | nil =>
      rw [readText.eq_def]
      simp
  | cons c content ih => rw [List.flatMap_cons, List.append_assoc, readText_escapeChar, ih]; rfl

/-- No character is left out. -/
theorem length_le_flatMap_escapeChar (cs : List Char) : cs.length ≤ (cs.flatMap escapeChar).length := by
  induction cs with
  | nil => exact Nat.le_refl _
  | cons c cs ih =>
      have hescape : 0 < (escapeChar c).length := by
        unfold escapeChar
        repeat' split
        all_goals exact Nat.zero_lt_succ _
      rw [List.flatMap_cons, List.length_append, List.length_cons]
      omega

/-- **A quoted string is read back** up to its closing quote. -/
theorem quotedChars_append (s : String) (rest : List Char) :
    ∃ cs, quotedChars s ++ rest = '"' :: cs ∧ readText cs = .ok (s.toList, rest) := by
  refine ⟨s.toList.flatMap escapeChar ++ '"' :: rest, ?_, readText_flatMap_escapeChar _ _⟩
  simp [quotedChars]

end SchemaTyping.Json
