import SchemaTyping.Proofs.Binary64.Shortest
import SchemaTyping.Proofs.Grammar.Basic

set_option autoImplicit false

/-! # Written numbers are numerals

Every finite number is written as JSON writes numbers. Integers are; of the layouts of a decimal only one
could go wrong, zeros behind a zero, and the shortest decimal of a double is never of that form: its
interval does not reach down to zero once the double is at least one (`shortest_digits_ne_zero`). -/

namespace SchemaTyping

namespace Grammar

/-! ## Digits -/

theorem isDigits_toDigits (n : Nat) : IsDigits (Nat.toDigits 10 n) :=
  ⟨Nat.toDigits_ne_nil, fun _ hc => Nat.isDigit_of_mem_toDigits (by decide) (by decide) hc⟩

theorem isDigits_zeros_append {k : Nat} {ds : List Char} (h : IsDigits ds) :
    IsDigits (Decimal.zeros k ++ ds) := by
  refine ⟨List.append_ne_nil_of_right_ne_nil _ h.1, fun c hc => ?_⟩
  rcases List.mem_append.1 hc with hc | hc
  · rw [List.eq_of_mem_replicate hc]
    rfl
  · exact h.2 c hc

theorem isDigits_append_zeros {k : Nat} {ds : List Char} (h : IsDigits ds) :
    IsDigits (ds ++ Decimal.zeros k) := by
  refine ⟨List.append_ne_nil_of_left_ne_nil h.1 _, fun c hc => ?_⟩
  rcases List.mem_append.1 hc with hc | hc
  · exact h.2 c hc
  · rw [List.eq_of_mem_replicate hc]
    rfl

theorem head?_toDigits_ne_zero {n : Nat} (hn : 0 < n) : (Nat.toDigits 10 n).head? ≠ some '0' := by
  induction n using Nat.strongRecOn with
  | ind n ih =>
      by_cases hlt : n < 10
      · rw [Nat.toDigits_of_lt_base hlt]
        have : ∀ m < 10, 0 < m → [Nat.digitChar m].head? ≠ some '0' := by decide
        exact this n hlt hn
      · have hdiv : 0 < n / 10 := by omega
        rw [Nat.toDigits_of_base_le (by decide) (by omega),
          List.head?_append_of_ne_nil _ Nat.toDigits_ne_nil]
        exact ih (n / 10) (by omega) hdiv

theorem isWhole_toDigits (n : Nat) : IsWhole (Nat.toDigits 10 n) := by
  refine ⟨isDigits_toDigits n, fun hhead => ?_⟩
  rcases Nat.eq_zero_or_pos n with rfl | hn
  · rfl
  · exact absurd hhead (head?_toDigits_ne_zero hn)

theorem isNumeral_of_isWhole {sign whole fraction : List Char} (hsign : sign = [] ∨ sign = ['-'])
    (hwhole : IsWhole whole) (hfraction : IsFraction fraction) :
    IsNumeral (sign ++ (whole ++ fraction)) :=
  ⟨sign, whole, fraction, [], hsign, hwhole, hfraction, Or.inl rfl, by simp⟩

theorem isNumeral_toString (i : Int) : IsNumeral (toString i).toList := by
  have hwhole (n : Nat) := isNumeral_of_isWhole (Or.inl rfl) (isWhole_toDigits n) (Or.inl rfl)
  have hnegative (n : Nat) := isNumeral_of_isWhole (Or.inr rfl) (isWhole_toDigits n) (Or.inl rfl)
  rw [Int.toString_eq_repr, Int.repr_eq_if]
  split
  · simpa using hwhole i.toNat
  · simpa using hnegative (-i).toNat

/-! ## Decimals -/

/-- The point stands behind a digit and before another one. -/
theorem point_lt_length {d : Decimal} (hexponent : ¬ 0 ≤ d.exponent) (hpoint : 0 < d.point) :
    0 < d.point.toNat ∧ d.point.toNat < d.numeral.length := by
  have hdef : d.point = d.numeral.length + d.exponent := rfl
  omega

theorem isWhole_take {d : Decimal} (hexponent : ¬ 0 ≤ d.exponent) (hpoint : 0 < d.point) :
    IsWhole (d.numeral.take d.point.toNat) := by
  obtain ⟨hpos, hlt⟩ := point_lt_length hexponent hpoint
  obtain ⟨hne, hall⟩ := isDigits_toDigits d.digits
  refine ⟨⟨?_, fun c hc => hall c (List.mem_of_mem_take hc)⟩, fun hhead => ?_⟩
  · exact List.ne_nil_of_length_pos (by rw [List.length_take]; omega)
  · rw [List.head?_take, if_neg (by omega)] at hhead
    have hzero : d.digits = 0 := Nat.eq_zero_of_not_pos fun hd => head?_toDigits_ne_zero hd hhead
    rw [Decimal.numeral, hzero, Nat.toDigits_zero, List.length_singleton] at hlt
    omega

theorem isDigits_drop {d : Decimal} (hexponent : ¬ 0 ≤ d.exponent) (hpoint : 0 < d.point) :
    IsDigits (d.numeral.drop d.point.toNat) := by
  obtain ⟨-, hlt⟩ := point_lt_length hexponent hpoint
  refine ⟨List.ne_nil_of_length_pos (by rw [List.length_drop]; omega), fun c hc => ?_⟩
  exact (isDigits_toDigits d.digits).2 c (List.mem_of_mem_drop hc)

theorem isWhole_append_zeros {d : Decimal} (hd : d.digits ≠ 0) (k : Nat) :
    IsWhole (d.numeral ++ Decimal.zeros k) := by
  have hdigits : IsDigits d.numeral := isDigits_toDigits d.digits
  refine ⟨isDigits_append_zeros hdigits, fun hhead => ?_⟩
  rw [List.head?_append_of_ne_nil _ hdigits.1] at hhead
  exact absurd hhead (head?_toDigits_ne_zero (Nat.pos_of_ne_zero hd))

theorem isWhole_zero : IsWhole ['0'] := ⟨⟨by simp, by simp⟩, fun _ => rfl⟩

/-- A decimal laid out without an exponent is a numeral, unless zeros follow a zero. -/
theorem isNumeral_plain {sign : List Char} (hsign : sign = [] ∨ sign = ['-']) (d : Decimal)
    (hd : d.digits ≠ 0 ∨ d.exponent ≤ 0) : IsNumeral (sign ++ d.plain) := by
  have hdigits : IsDigits d.numeral := isDigits_toDigits d.digits
  unfold Decimal.plain
  split
  · next hexponent =>
      have hwhole : IsWhole (d.numeral ++ Decimal.zeros d.exponent.toNat) := by
        rcases hd with hd | hd
        · exact isWhole_append_zeros hd _
        · rw [show d.exponent.toNat = 0 by omega]
          simpa [Decimal.zeros, Decimal.numeral] using isWhole_toDigits d.digits
      simpa using isNumeral_of_isWhole hsign hwhole (Or.inl rfl)
  · next hexponent =>
      split
      · next hpoint =>
          exact isNumeral_of_isWhole hsign (isWhole_take hexponent hpoint)
            (Or.inr ⟨_, isDigits_drop hexponent hpoint, rfl⟩)
      · have hfraction := isDigits_zeros_append (k := (-d.point).toNat) hdigits
        have hnumeral := isNumeral_of_isWhole hsign isWhole_zero (Or.inr ⟨_, hfraction, rfl⟩)
        exact hnumeral

end Grammar

/-! ## Literals -/

/-- A finite number is written as a numeral. -/
theorem Literal.isNumeral_finiteChars (x : Dyadic) : Grammar.IsNumeral (finiteChars x) := by
  have hshortest : Grammar.IsNumeral (finiteChars.shortestChars x) := by
    cases x with
    | zero => exact Grammar.isNumeral_toString 0
    | ofOdd n k hn =>
        have hnat : n.natAbs ≠ 0 := by omega
        refine Grammar.isNumeral_plain ?_ _ (Binary64.shortest_digits_ne_zero .up hnat (-k))
        split
        · exact Or.inr rfl
        · exact Or.inl rfl
  unfold finiteChars
  split
  · split
    · exact Grammar.isNumeral_toString _
    · exact hshortest
  · exact hshortest

end SchemaTyping
