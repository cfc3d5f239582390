import SchemaTyping.Json.Record
import SchemaTyping.Json.Writing
import SchemaTyping.Proofs.Grammar.Numerals
import SchemaTyping.Proofs.Json.Local
import SchemaTyping.Proofs.Json.Proper

set_option autoImplicit false

/-! # Integers read back

An integer of at most 64 bits is written as its decimal digits, and the reader of numerals keeps it as an
integer. Unlike a string it has no end of its own: it is read back only where what follows does not go on
with the numeral (`EndsNumeral`). -/

namespace SchemaTyping.Json

open Reader

/-! ## The digits of a numeral -/

theorem digitsValue_toDigits (n : Nat) : Binary64.digitsValue (Nat.toDigits 10 n) = n :=
  Nat.ofDigitChars_ten_toDigits

/-- A numeral of a whole number ends in front of this text: it starts with no digit, no point and no letter
    of an exponent. -/
def EndsNumeral (rest : List Char) : Prop :=
  ∀ c ∈ rest.head?, c.isDigit = false ∧ c ≠ '.' ∧ c ≠ 'e' ∧ c ≠ 'E'

section

variable {rest : List Char} {negative : Bool} {n : Number}

theorem EndsNumeral.head?_ne_point (h : EndsNumeral rest) : rest.head? ≠ some '.' := by
  intro hpoint
  exact (h '.' hpoint).2.1 rfl

theorem EndsNumeral.no_exponent (h : EndsNumeral rest) :
    (rest.head?.all fun c => c != 'e' && c != 'E') = true := by
  cases hhead : rest.head? with
  | none => rfl
  | some c =>
      obtain ⟨-, -, he, hE⟩ := h c hhead
      simp [he, hE]

theorem span_digits {ds : List Char} (hds : Grammar.IsDigits ds)
    (hrest : ∀ c ∈ rest.head?, c.isDigit = false) :
    (ds ++ rest).takeWhile Char.isDigit = ds ∧ (ds ++ rest).dropWhile Char.isDigit = rest := by
  have hstop : rest.takeWhile Char.isDigit = [] ∧ rest.dropWhile Char.isDigit = rest := by
    cases rest with
    | nil => exact ⟨rfl, rfl⟩
    | cons c rest => simp [hrest c rfl]
  rw [List.takeWhile_append_of_pos hds.2, List.dropWhile_append_of_pos hds.2, hstop.1, hstop.2]
  exact ⟨List.append_nil ds, rfl⟩

theorem readTail_of_kept (whole : List Char) (hrest : EndsNumeral rest)
    (hn : keptInteger? negative (Binary64.digitsValue whole) = some n) :
    readTail negative whole rest = .ok (n, rest) := by
  rw [readTail_of_head? negative whole hrest.head?_ne_point, hrest.no_exponent, hn]

/-- The whole part of a numeral is read as far as its digits go. -/
theorem readNumber_of_isWhole {whole : List Char} (hwhole : Grammar.IsWhole whole)
    (hrest : ∀ c ∈ rest.head?, c.isDigit = false) :
    readNumber negative (whole ++ rest) = readTail negative whole rest := by
  obtain ⟨hdigits, hzero⟩ := hwhole
  obtain ⟨c, ds, rfl⟩ := List.exists_cons_of_ne_nil hdigits.1
  by_cases hc : c = '0'
  · subst hc
    -- a zero in front is the whole part
    have hsingle : '0' :: ds = ['0'] := hzero rfl
    have hdigit : rest.head?.any Char.isDigit = false := by
      cases hhead : rest.head? with
      | none => rfl
      | some d => exact hrest d hhead
    rw [hsingle, List.singleton_append, readNumber_zero, hdigit]
    rfl
  · have hc' : c.isDigit = true := hdigits.2 c List.mem_cons_self
    obtain ⟨htake, hdrop⟩ := span_digits hdigits hrest
    rw [List.cons_append] at htake hdrop ⊢
    simp only [readNumber, if_neg hc, if_pos hc', htake, hdrop]

/-- The digits of a number that is kept as an integer are read whole. -/
theorem readNumber_of_kept {whole : List Char} (hwhole : Grammar.IsWhole whole) (hrest : EndsNumeral rest)
    (hn : keptInteger? negative (Binary64.digitsValue whole) = some n) :
    readNumber negative (whole ++ rest) = .ok (n, rest) := by
  rw [readNumber_of_isWhole hwhole fun c hc => (hrest c hc).1]
  exact readTail_of_kept _ hrest hn

end

/-! ## Integers -/

/-- An integer of at most 64 bits is kept as an integer. -/
theorem keptInteger?_of_proper {i : Int} (h : (Number.integer i).Proper) :
    keptInteger? (i < 0) i.natAbs = some (.integer i) := by
  simp only [Number.Proper] at h
  unfold keptInteger?
  by_cases hi : i < 0
  · have hne : i.natAbs ≠ 0 := by omega
    have hle : i.natAbs ≤ 1 <<< 63 := by omega
    have habs : -(i.natAbs : Int) = i := by omega
    rw [if_pos (decide_eq_true hi), if_neg hne, if_pos hle, habs]
  · have hlt : i.natAbs < 1 <<< 64 := by omega
    have habs : (i.natAbs : Int) = i := by omega
    rw [if_neg (by simpa using hi), if_pos hlt, habs]

/-- An integer is its digits, with a sign in front if it is negative. -/
theorem chars_integer (i : Int) :
    (Number.integer i).chars = (if i < 0 then ['-'] else []) ++ Nat.toDigits 10 i.natAbs := by
  simp only [Number.chars, Int.toString_eq_repr, Int.repr_eq_if]
  by_cases hi : i < 0
  · have habs : (-i).toNat = i.natAbs := by omega
    simp [hi, habs, Int.not_le.2 hi]
  · have habs : i.toNat = i.natAbs := by omega
    simp [hi, habs, Int.not_lt.1 hi]

theorem exists_digits (n : Nat) : ∃ c ds, Nat.toDigits 10 n = c :: ds ∧ c.isDigit = true := by
  obtain ⟨hne, hdigits⟩ := Grammar.isDigits_toDigits n
  obtain ⟨c, ds, hds⟩ := List.exists_cons_of_ne_nil hne
  exact ⟨c, ds, hds, hdigits c (hds ▸ List.mem_cons_self)⟩

theorem ne_of_isDigit {c d : Char} (hc : c.isDigit = true) (hd : d.isDigit = false) : c ≠ d := by
  rintro rfl
  exact absurd (hc.symm.trans hd) (by decide)

theorem isBlank_of_isDigit {c : Char} (h : c.isDigit = true) : isBlank c = false := by
  have hspace : c ≠ ' ' := ne_of_isDigit h rfl
  have hline : c ≠ '\n' := ne_of_isDigit h rfl
  have htab : c ≠ '\t' := ne_of_isDigit h rfl
  have hreturn : c ≠ '\r' := ne_of_isDigit h rfl
  simp [isBlank, hspace, hline, htab, hreturn]

/-- A digit starts a numeral without a sign. -/
theorem readerWith_digit {c : Char} {cs tail : List Char} (h : cs.dropWhile isBlank = c :: tail)
    (hc : c.isDigit = true) (nested : Option (Reader Json)) :
    readerWith nested cs = (do return .number (← scan (readNumber false)) : Reader Json) (c :: tail) := by
  have hn : c ≠ 'n' := ne_of_isDigit hc rfl
  have ht : c ≠ 't' := ne_of_isDigit hc rfl
  have hf : c ≠ 'f' := ne_of_isDigit hc rfl
  have hminus : c ≠ '-' := ne_of_isDigit hc rfl
  rw [readerWith, ahead_bind, h]
  simp only [if_neg hn, if_neg ht, if_neg hf, if_neg hminus, if_pos hc]

theorem exists_digit_of_readNumber {negative : Bool} {cs : List Char} {r : Number × List Char}
    (h : readNumber negative cs = .ok r) : ∃ c tail, cs = c :: tail ∧ c.isDigit = true := by
  cases cs with
  | nil => cases h
  | cons c tail =>
      refine ⟨c, tail, rfl, ?_⟩
      by_cases hzero : c = '0'
      · rw [hzero]
        rfl
      · by_contra hc
        simp only [readNumber, if_neg hzero, if_neg hc] at h
        cases h

/-- A numeral with or without a sign is read as the number of its digits. -/
theorem readerWith_numeral {negative : Bool} {body rest cs : List Char} {n : Number}
    (hcs : cs.dropWhile isBlank = (if negative then ['-'] else []) ++ body)
    (hread : readNumber negative body = .ok (n, rest)) (nested : Option (Reader Json)) :
    readerWith nested cs = .ok (.number n, rest) := by
  cases negative with
  | true =>
      rw [readerWith, ahead_bind, hcs]
      exact bind_eq_ok.2 ⟨(), _, rfl, bind_eq_ok.2 ⟨_, rest, scan_eq_ok.2 hread, rfl⟩⟩
  | false =>
      obtain ⟨c, tail, rfl, hc⟩ := exists_digit_of_readNumber hread
      rw [readerWith_digit hcs hc]
      exact bind_eq_ok.2 ⟨_, rest, scan_eq_ok.2 hread, rfl⟩

/-- **An integer of at most 64 bits is read back.** -/
theorem readerWith_integer {i : Int} (hi : (Number.integer i).Proper) {cs rest : List Char}
    (hcs : cs.dropWhile isBlank = (Number.integer i).chars ++ rest) (hrest : EndsNumeral rest)
    (nested : Option (Reader Json)) : readerWith nested cs = .ok (.number (.integer i), rest) := by
  have hwhole : Grammar.IsWhole (Nat.toDigits 10 i.natAbs) := Grammar.isWhole_toDigits _
  have hread : readNumber (i < 0) (Nat.toDigits 10 i.natAbs ++ rest) = .ok (.integer i, rest) := by
    refine readNumber_of_kept hwhole hrest ?_
    rw [digitsValue_toDigits]
    exact keptInteger?_of_proper hi
  rw [chars_integer, List.append_assoc] at hcs
  refine readerWith_numeral ?_ hread nested
  simpa using hcs

/-- A count of 64 bits is read back. -/
theorem countReader_integer {n : Nat} (hn : n < 1 <<< 64) {cs rest : List Char}
    (hcs : cs.dropWhile isBlank = ((Number.integer n).chars ++ rest).dropWhile isBlank)
    (hrest : EndsNumeral rest) : countReader cs = .ok (n, rest) := by
  have hproper : (Number.integer n).Proper := by
    simp only [Number.Proper]
    omega
  obtain ⟨c, ds, hds, hc⟩ := exists_digits n
  have hchars : (Number.integer n).chars = c :: ds := by
    rw [chars_integer, if_neg (by omega), List.nil_append, Int.natAbs_natCast, hds]
  have hkeep : (c :: (ds ++ rest)).dropWhile isBlank = c :: (ds ++ rest) := by
    simp [isBlank_of_isDigit hc]
  rw [hchars, List.cons_append, hkeep] at hcs
  have hread : readerWith none (c :: (ds ++ rest)) = .ok (.number (.integer n), rest) := by
    refine readerWith_integer hproper ?_ hrest none
    rw [hkeep, hchars, List.cons_append]
  rw [countReader, ahead_bind, hcs]
  simp only [hc, Bool.or_true, if_true]
  exact bind_eq_ok.2 ⟨_, rest, hread, rfl⟩

end SchemaTyping.Json
