import SchemaTyping.Proofs.Json.Integers

set_option autoImplicit false

/-! # Decimals read back

A decimal that is laid out without an exponent has the digits of the decimal on both sides of its point, and
zeros. The reader puts the digits together again, so it reads the number that the decimal is, and rounds it to
a double, or keeps it as an integer of 64 bits, which is as near to the double. The shortest decimal of a
double is near to it and therefore read as that double (`ofText_shortest`). -/

namespace SchemaTyping.Json

open Binary64 (Placed Near IsDouble signed ofDecimal_of_near ofInt_of_near)
open Reader

/-! ## The value of digits -/

theorem digitsValue_append_zeros (ds : List Char) (k : Nat) :
    Binary64.digitsValue (ds ++ Decimal.zeros k) = Binary64.digitsValue ds * 10 ^ k := by
  have happend : Binary64.digitsValue (ds ++ Decimal.zeros k)
      = Nat.ofDigitChars 10 (Decimal.zeros k) (Binary64.digitsValue ds) := Nat.ofDigitChars_append 0
  rw [happend, Decimal.zeros, Nat.ofDigitChars_replicate_zero, Nat.mul_comm]

theorem digitsValue_zeros_append (k : Nat) (ds : List Char) :
    Binary64.digitsValue (Decimal.zeros k ++ ds) = Binary64.digitsValue ds := by
  have happend : Binary64.digitsValue (Decimal.zeros k ++ ds)
      = Nat.ofDigitChars 10 ds (Nat.ofDigitChars 10 (Decimal.zeros k) 0) := Nat.ofDigitChars_append 0
  rw [happend, Decimal.zeros, Nat.ofDigitChars_replicate_zero, Nat.mul_zero]
  rfl

theorem digitsValue_numeral (d : Decimal) : Binary64.digitsValue d.numeral = d.digits :=
  digitsValue_toDigits d.digits

/-! ## Numbers near to a double -/

section

variable {mantissa : Nat} {place : Int} {negative : Bool}

/-- A numeral that is rounded is the double nearest to it. -/
theorem realNumber_of_finite {digits : Nat} {exponent : Int} {x : Dyadic}
    (h : Binary64.ofDecimal negative digits exponent = .finite x) :
    ∃ n, realNumber negative digits exponent = .ok n ∧ n.toBinary64 = .finite x := by
  rw [realNumber, h]
  refine ⟨_, rfl, ?_⟩
  by_cases hzero : x = 0 ∧ negative = true
  · rw [if_pos hzero, hzero.1]
    rfl
  · rw [if_neg hzero]
    rfl

theorem realNumber_of_near (h : Placed mantissa place) {digits : Nat} {exponent : Int}
    (hnear : Near mantissa place (digits * 10 ^ exponent)) :
    ∃ n, realNumber negative digits exponent = .ok n ∧
      n.toBinary64 = .finite (signed negative mantissa place) :=
  realNumber_of_finite (ofDecimal_of_near h hnear negative)

/-- A number that is kept as an integer is that integer as a double. -/
theorem toBinary64_of_kept {value : Nat} {n : Number} (h : keptInteger? negative value = some n) :
    n.toBinary64 = .ofInt (if negative then -(value : Int) else value) := by
  rcases keptInteger?_eq_some h with ⟨rfl, rfl, rfl⟩ | ⟨rfl, -, rfl⟩ | ⟨rfl, -, rfl⟩
  · rfl
  · rfl
  · rfl

theorem readScaled_nil_eq_ok {digits places : Nat} {n : Number}
    (h : realNumber negative digits (0 - places) = .ok n) :
    readScaled negative digits places [] = .ok (n, []) := by
  rw [readScaled_eq]
  exact Outcome.bind_eq_ok.2 ⟨(0, []), rfl, Outcome.bind_eq_ok.2 ⟨n, h, rfl⟩⟩

/-- The digits of a whole number, up to the end of the text. -/
theorem readTail_of_near (h : Placed mantissa place) {whole : List Char}
    (hnear : Near mantissa place (Binary64.digitsValue whole)) :
    ∃ n, readTail negative whole [] = .ok (n, []) ∧
      n.toBinary64 = .finite (signed negative mantissa place) := by
  cases hkept : keptInteger? negative (Binary64.digitsValue whole) with
  | some n =>
      refine ⟨n, ?_, (toBinary64_of_kept hkept).trans (ofInt_of_near h hnear negative)⟩
      rw [readTail_of_head? negative whole (by simp), hkept]
      rfl
  | none =>
      have hnear' : Near mantissa place (Binary64.digitsValue whole * 10 ^ (0 : Int)) := by simpa using hnear
      obtain ⟨n, hn, hvalue⟩ := realNumber_of_near h hnear'
      refine ⟨n, ?_, hvalue⟩
      rw [readTail_of_head? negative whole (by simp), hkept]
      exact readScaled_nil_eq_ok hn

/-- The digits behind the point, up to the end of the text. -/
theorem readTail_fraction_of_near (h : Placed mantissa place) {whole fraction : List Char}
    (hfraction : Grammar.IsDigits fraction)
    (hnear : Near mantissa place
      (Binary64.digitsValue (whole ++ fraction) * 10 ^ (-(fraction.length : Int)))) :
    ∃ n, readTail negative whole ('.' :: fraction) = .ok (n, []) ∧
      n.toBinary64 = .finite (signed negative mantissa place) := by
  obtain ⟨n, hn, hvalue⟩ := realNumber_of_near h hnear
  have hend : ∀ c ∈ ([] : List Char).head?, c.isDigit = false := nofun
  obtain ⟨htake, hdrop⟩ := span_digits hfraction hend
  rw [List.append_nil] at htake hdrop
  refine ⟨n, ?_, hvalue⟩
  simp only [readTail, htake, hdrop, List.isEmpty_eq_false_iff.2 hfraction.1]
  exact readScaled_nil_eq_ok (by rwa [Int.zero_sub])

/-- **A decimal near to a double is read as this double.** -/
theorem readNumber_plain (h : Placed mantissa place) {d : Decimal}
    (hnear : Near mantissa place (d.digits * 10 ^ d.exponent)) :
    ∃ n, readNumber negative d.plain = .ok (n, []) ∧
      n.toBinary64 = .finite (signed negative mantissa place) := by
  have hdigits : d.digits ≠ 0 := hnear.digits_ne_zero h
  have hnumeral : Grammar.IsDigits d.numeral := Grammar.isDigits_toDigits d.digits
  have hpointDef : d.point = d.numeral.length + d.exponent := rfl
  unfold Decimal.plain
  split
  · next hexponent =>
      have hwhole := Grammar.isWhole_append_zeros hdigits d.exponent.toNat
      rw [← List.append_nil (d.numeral ++ Decimal.zeros d.exponent.toNat),
        readNumber_of_isWhole hwhole (by simp)]
      refine readTail_of_near h ?_
      rw [digitsValue_append_zeros, digitsValue_numeral]
      rw [show d.exponent = (d.exponent.toNat : Int) by omega, zpow_natCast] at hnear
      exact_mod_cast hnear
  · next hexponent =>
      split
      · next hpoint =>
          rw [readNumber_of_isWhole (Grammar.isWhole_take hexponent hpoint) (by simp)]
          refine readTail_fraction_of_near h (Grammar.isDigits_drop hexponent hpoint) ?_
          rw [List.take_append_drop, digitsValue_numeral, List.length_drop]
          rwa [show -((d.numeral.length - d.point.toNat : Nat) : Int) = d.exponent by omega]
      · next hpoint =>
          have hfraction := Grammar.isDigits_zeros_append (k := (-d.point).toNat) hnumeral
          rw [List.cons_append, List.cons_append, ← List.singleton_append,
            readNumber_of_isWhole Grammar.isWhole_zero (by simp)]
          refine readTail_fraction_of_near h hfraction ?_
          have hvalue : Binary64.digitsValue (['0'] ++ (Decimal.zeros (-d.point).toNat ++ d.numeral))
              = d.digits := by
            rw [show ['0'] = Decimal.zeros 1 from rfl, digitsValue_zeros_append, digitsValue_zeros_append,
              digitsValue_numeral]
          have hplaces : -((Decimal.zeros (-d.point).toNat ++ d.numeral).length : Int) = d.exponent := by
            rw [List.length_append, Decimal.zeros, List.length_replicate]
            omega
          rwa [hvalue, hplaces]

/-- A whole text that is a numeral, with or without a sign. -/
theorem ofText_numeral {body : List Char} {n : Number} (hread : readNumber negative body = .ok (n, [])) :
    ofText (String.ofList ((if negative then ['-'] else []) ++ body)) = .ok (.number n) := by
  obtain ⟨c, tail, rfl, hc⟩ := exists_digit_of_readNumber hread
  have hstart : ((if negative then ['-'] else []) ++ c :: tail).dropWhile isBlank
      = (if negative then ['-'] else []) ++ c :: tail := by
    cases negative with
    | true => rfl
    | false => simp [isBlank_of_isDigit hc]
  have hreader : ∀ levels,
      reader levels ((if negative then ['-'] else []) ++ c :: tail) = .ok (.number n, []) := by
    intro levels
    cases levels <;> exact readerWith_numeral hstart hread _
  rw [ofText, ofTextWithin, String.toList_ofList, StateT.run, hreader]
  rfl

end

/-- **The shortest decimal of a double is read as the double.** -/
theorem ofText_shortest {n k : Int} {hn : n % 2 = 1} (h : IsDouble (.ofOdd n k hn)) (tie : Binary64.Tie) :
    ∃ m : Number, m.toBinary64 = .finite (.ofOdd n k hn) ∧
      ofText (String.ofList ((if n < 0 then ['-'] else []) ++ (Binary64.shortest tie n.natAbs (-k)).plain))
        = .ok (.number m) := by
  obtain ⟨-, hplaced⟩ := Binary64.placed_of_isDouble h
  obtain ⟨m, hread, hm⟩ := readNumber_plain hplaced (Binary64.near_shortest tie h)
  refine ⟨m, hm.trans (congrArg _ (Binary64.ofOdd_eq h).symm), ?_⟩
  simpa using ofText_numeral hread

/-! ## Numbers that are read -/

/-- A number that is read is a finite double. -/
theorem Number.IsRead.exists_isDouble {n : Number} (h : n.IsRead) :
    ∃ x, n.toBinary64 = .finite x ∧ IsDouble x := by
  cases h with
  | @kept negative value h =>
      have hle : value ≤ 1 <<< 64 := by
        rcases keptInteger?_eq_some h with ⟨-, rfl, -⟩ | ⟨-, hle, -⟩ | ⟨-, hlt, -⟩ <;> omega
      have hbound : (if negative then -(value : Int) else value).natAbs ≤ 1 <<< 64 := by
        split <;> omega
      obtain ⟨x, hx⟩ := Binary64.finite_ofInt hbound
      exact ⟨x, (toBinary64_of_kept h).trans hx, Binary64.isDouble_of_ofInt hx⟩
  | @rounded negative digits exponent h =>
      cases hx : Binary64.ofDecimal negative digits exponent with
      | finite x =>
          obtain ⟨m, hm, hvalue⟩ := realNumber_of_finite hx
          cases h.symm.trans hm
          exact ⟨x, hvalue, Binary64.isDouble_of_ofDecimal hx⟩
      | _ => rw [realNumber, hx] at h; cases h

end SchemaTyping.Json
