import SchemaTyping.Proofs.Json.Numerals
import SchemaTyping.Proofs.Json.Scalars
import SchemaTyping.Registry.Literal

set_option autoImplicit false

/-! # Literals read back

The text of a literal is that of a JSON value, and the literal is read back from it. Null, the booleans and the
texts are written as JSON writes them; a number is an integer in plain digits or the shortest decimal, and both
are read as the double that it is (`Literal.Proper.read_back`). So no two literals look alike, and those that
JSON can give are the ones whose numbers are finite doubles (`Literal.fromJson_iff`). -/

namespace SchemaTyping

/-! ## Integers among the doubles -/

theorem Binary64.integer?_ofInt (i : Int) : integer? (.ofInt i) = some i := by
  unfold Dyadic.ofInt Dyadic.ofIntWithPrec
  split
  · next h => rw [h]; rfl
  · next h =>
      have hzeros : (-(0 - (i.trailingZeros : Int))).toNat = i.trailingZeros := by omega
      have hdvd := Int.two_pow_trailingZeros_dvd h
      rw [integer?, if_pos (by omega), hzeros, Int.shiftRight_eq_div_pow, Int.shiftLeft_eq]
      exact congrArg some (Int.ediv_mul_cancel (mod_cast hdvd))

theorem Binary64.integer?_eq_some_iff {x : Dyadic} {i : Int} : integer? x = some i ↔ x = .ofInt i := by
  refine ⟨fun h => ?_, fun h => h ▸ integer?_ofInt i⟩
  cases x with
  | zero =>
      obtain rfl : 0 = i := by simpa [integer?] using h
      rfl
  | ofOdd n k hn =>
      rw [integer?, Option.ite_none_right_eq_some, Option.some.injEq] at h
      obtain ⟨hk, rfl⟩ := h
      have hexponent : -k = ((-k).toNat : Int) := by omega
      rw [← Dyadic.toRat_inj, toRat_ofInt, Dyadic.toRat_ofOdd_eq_mul_two_pow, Int.shiftLeft_eq, hexponent,
        zpow_natCast, Int.toNat_natCast]
      norm_cast

namespace Literal

variable {l l' : Literal}

/-! ## Literals of values -/

/-- The literal is a value that is read from a text. -/
def FromJson (l : Literal) : Prop := ∃ text j, Json.ofText text = .ok j ∧ ofJson? j = some l

/-- A number is a finite double. -/
def Proper : Literal → Prop
  | .number x => ∃ d, x = .finite d ∧ Binary64.IsDouble d
  | _ => True

theorem FromJson.proper (h : l.FromJson) : l.Proper := by
  obtain ⟨text, j, hj, hl⟩ := h
  cases j with
  | number n =>
      cases hl
      exact (Json.isRead_of_ofText hj).exists_isDouble
  | list _ | object _ => cases hl
  | _ => cases hl; trivial

/-! ## Texts of literals -/

theorem finiteChars_ofInt {i : Int} (hi : i.natAbs < integerBound) :
    finiteChars (.ofInt i) = (toString i).toList := by
  rw [finiteChars, Binary64.integer?_ofInt]
  exact if_pos hi

/-- Any other number is no zero and is written as its shortest decimal. -/
theorem finiteChars_eq_or (x : Dyadic) :
    (∃ i : Int, i.natAbs < integerBound ∧ x = .ofInt i) ∨
      ∃ n k hn, x = .ofOdd n k hn ∧ finiteChars x = finiteChars.shortestChars x := by
  cases x with
  | zero => exact .inl ⟨0, by decide, rfl⟩
  | ofOdd n k hn =>
      unfold finiteChars
      split
      · next i hi =>
          by_cases hsmall : i.natAbs < integerBound
          · exact .inl ⟨i, hsmall, Binary64.integer?_eq_some_iff.1 hi⟩
          · exact .inr ⟨n, k, hn, rfl, if_neg hsmall⟩
      · exact .inr ⟨n, k, hn, rfl, rfl⟩

/-- An integer of less than 53 bits is read back from its digits. -/
theorem read_back_ofInt {i : Int} (hi : i.natAbs < integerBound) :
    ∃ n : Json.Number, n.toBinary64 = .finite (.ofInt i) ∧
      Json.ofText (String.ofList (finiteChars (.ofInt i))) = .ok (.number n) := by
  rw [integerBound] at hi
  have hproper : (Json.Number.integer i).Proper := by
    simp only [Json.Number.Proper]
    omega
  refine ⟨.integer i, if_pos (Nat.le_of_lt hi), ?_⟩
  rw [finiteChars_ofInt hi]
  exact Json.ofText_compact (j := .number (.integer i)) hproper

/-- **A double is read back from its text.** -/
theorem read_back_finite {x : Dyadic} (hx : Binary64.IsDouble x) :
    ∃ n : Json.Number, n.toBinary64 = .finite x ∧
      Json.ofText (String.ofList (finiteChars x)) = .ok (.number n) := by
  rcases finiteChars_eq_or x with ⟨i, hi, rfl⟩ | ⟨n, k, hn, rfl, hchars⟩
  · exact read_back_ofInt hi
  · rw [hchars]
    exact Json.ofText_shortest hx .up

/-- **A literal is read back from its text.** -/
theorem Proper.read_back (h : l.Proper) : ∃ j, Json.ofText l.shown = .ok j ∧ ofJson? j = some l := by
  cases l with
  | null => exact ⟨.null, rfl, rfl⟩
  | boolean b => exact ⟨.boolean b, by cases b <;> rfl, rfl⟩
  | number x =>
      obtain ⟨x, rfl, hx⟩ := h
      obtain ⟨n, hn, hread⟩ := read_back_finite hx
      exact ⟨.number n, hread, congrArg (fun x => some (number x)) hn⟩
  | text s => exact ⟨.text s, Json.ofText_compact (j := .text s) trivial, rfl⟩

/-- JSON gives null, the booleans, the texts and the finite doubles. -/
theorem fromJson_iff : l.FromJson ↔ l.Proper :=
  ⟨FromJson.proper, fun h => ⟨l.shown, h.read_back⟩⟩

theorem Proper.chars_inj (h : l.Proper) (h' : l'.Proper) (hchars : l.chars = l'.chars) : l = l' := by
  obtain ⟨j, hj, hl⟩ := h.read_back
  obtain ⟨j', hj', hl'⟩ := h'.read_back
  rw [shown, hchars, ← shown, hj'] at hj
  cases hj
  exact Option.some.inj (hl.symm.trans hl')

end Literal

end SchemaTyping
