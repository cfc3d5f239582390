import SchemaTyping.Json.Reading
import SchemaTyping.Proofs.Outcome

set_option autoImplicit false

/-! # What scanning takes off a text

A word is taken as it is, a string up to its closing quote. A numeral goes on as long as it can: where it
ends depends on the character behind it, and on nothing else. -/

namespace SchemaTyping.Json

variable {α : Type}

/-- What the step takes off the text and what it makes of it depend on no more than that and the character
    behind it. -/
def LocalScan (f : List Char → Except Malformed (α × List Char)) : Prop :=
  ∀ cs a rest, f cs = .ok (a, rest) →
    ∃ front, cs = front ++ rest ∧ ∀ other, other.head? = rest.head? → f (front ++ other) = .ok (a, other)

/-- A text that goes on starts with the character it goes on with, whatever comes later. -/
theorem head?_append_congr {front rest other : List Char} (h : other.head? = rest.head?) :
    (front ++ other).head? = (front ++ rest).head? := by
  rw [List.head?_append, List.head?_append, h]

/-- Characters that all have a property are taken up to the same place, as long as what stands there
    starts alike. -/
theorem span_swap {p : Char → Bool} {cs other : List Char} (h : other.head? = (cs.dropWhile p).head?) :
    (cs.takeWhile p ++ other).takeWhile p = cs.takeWhile p ∧
      (cs.takeWhile p ++ other).dropWhile p = other := by
  induction cs with
  | nil => cases other <;> simp_all
  | cons c cs ih =>
      by_cases hc : p c
      · simp_all
      · cases other <;> simp_all

/-! ## Words and strings -/

theorem readWord_eq_ok {ws cs rest : List Char} {u : Unit} :
    readWord ws cs = .ok (u, rest) ↔ cs = ws ++ rest := by
  induction ws generalizing cs with
  | nil => simp [readWord, eq_comm]
  | cons w ws ih =>
      cases cs with
      | nil => simp [readWord]
      | cons c cs =>
          by_cases hc : c = w
          · simp [readWord, hc, ih]
          · simp [readWord, hc]

theorem localScan_readWord (ws : List Char) : LocalScan (readWord ws) :=
  fun _ _ _ h => ⟨ws, readWord_eq_ok.1 h, fun _ _ => readWord_eq_ok.2 rfl⟩

/-- The string is taken off the text, and what follows it does not matter. -/
def TextEnds (cs s rest : List Char) : Prop :=
  ∃ front, front ≠ [] ∧ cs = front ++ rest ∧ ∀ other, readText (front ++ other) = .ok (s, other)

theorem textEnds_cons {lead cs s rest : List Char} {c : Char}
    (hstep : ∀ more, readText (lead ++ more) = (readText more).map fun (s, rest) => (c :: s, rest))
    (ih : ∀ {s}, readText cs = .ok (s, rest) → TextEnds cs s rest)
    (h : ((readText cs).map fun (s, rest) => (c :: s, rest)) = .ok (s, rest)) :
    TextEnds (lead ++ cs) s rest := by
  obtain ⟨⟨s', rest'⟩, hs, heq⟩ := Outcome.map_eq_ok.1 h
  cases heq
  obtain ⟨front, hne, rfl, hfront⟩ := ih hs
  refine ⟨lead ++ front, by simp [hne], (List.append_assoc ..).symm, fun other => ?_⟩
  rw [List.append_assoc, hstep, hfront]
  rfl

theorem readText_closed (cs : List Char) {s rest : List Char} (h : readText cs = .ok (s, rest)) :
    TextEnds cs s rest := by
  -- of the ways to go on only those that end the string or add a character to it succeed
  fun_induction readText cs generalizing s with
  | case2 tail =>
      cases h
      refine ⟨['"'], List.cons_ne_nil _ _, rfl, fun other => ?_⟩
      rw [List.singleton_append, readText.eq_def]
      simp
  | case9 h₁ h₂ h₃ h₄ high hhigh hnotLow hisHigh l₁ l₂ l₃ l₄ tail low hlow hisLow _ ih =>
      have hstep (more : List Char) :
          readText (['\\', 'u', h₁, h₂, h₃, h₄, '\\', 'u', l₁, l₂, l₃, l₄] ++ more)
            = (readText more).map fun (s, rest) => (pairChar high low :: s, rest) := by
        simp [readText.eq_def (_ :: _), hhigh, hnotLow, hisHigh, hlow, hisLow]
      exact textEnds_cons hstep ih h
  | case13 h₁ h₂ h₃ h₄ tail unit hunit hnotLow hnotHigh _ ih =>
      have hstep (more : List Char) : readText (['\\', 'u', h₁, h₂, h₃, h₄] ++ more)
            = (readText more).map fun (s, rest) => (Char.ofNat unit :: s, rest) := by
        simp [readText.eq_def (_ :: _), hunit, hnotLow, hnotHigh]
      exact textEnds_cons hstep ih h
  | case16 e tail he c hc _ ih =>
      have hstep (more : List Char) : readText (['\\', e] ++ more)
            = (readText more).map fun (s, rest) => (c :: s, rest) := by
        simp [readText.eq_def (_ :: _), he, hc]
      exact textEnds_cons hstep ih h
  | case18 c tail hquote hbackslash hplain ih =>
      have hstep (more : List Char) : readText ([c] ++ more)
            = (readText more).map fun (s, rest) => (c :: s, rest) := by
        simp [readText.eq_def (_ :: _), hquote, hbackslash, hplain]
      exact textEnds_cons hstep ih h
  | _ => cases h

/-! ## Numerals -/

/-- The digits of an exponent, after its sign. -/
def exponentDigits (negative : Bool) (cs : List Char) : Except Malformed (Int × List Char) :=
  match cs with
  | [] => .error .endInValue
  | c :: _ =>
    if c.isDigit then
      let value : Int := Binary64.digitsValue (cs.takeWhile Char.isDigit)
      .ok (if negative then -value else value, cs.dropWhile Char.isDigit)
    else .error .invalidNumber

theorem readExponent_digit {c : Char} (hminus : c ≠ '-') (hplus : c ≠ '+') (rest : List Char) :
    readExponent (c :: rest) = exponentDigits false (c :: rest) := by
  unfold readExponent
  split
  next heq =>
  split at heq
  · simp_all
  · simp_all
  · cases heq; rfl

theorem local_exponentDigits (negative : Bool) {cs rest : List Char} {n : Int}
    (h : exponentDigits negative cs = .ok (n, rest)) :
    ∃ c front, cs = c :: front ++ rest ∧ c.isDigit = true ∧
      ∀ other, other.head? = rest.head? → exponentDigits negative (c :: front ++ other) = .ok (n, other) := by
  cases cs with
  | nil => cases h
  | cons c tail =>
      by_cases hc : c.isDigit = true
      · simp only [exponentDigits, if_pos hc] at h
        cases h
        have hcons : (c :: tail).takeWhile Char.isDigit = c :: tail.takeWhile Char.isDigit := by simp [hc]
        refine ⟨c, tail.takeWhile Char.isDigit, ?_, hc, fun other hother => ?_⟩
        · rw [← hcons, List.takeWhile_append_dropWhile]
        · obtain ⟨htake, hdrop⟩ := span_swap hother
          rw [hcons] at htake hdrop ⊢
          rw [List.cons_append] at htake hdrop ⊢
          simp only [exponentDigits, if_pos hc, htake, hdrop]
      · simp only [exponentDigits, if_neg hc] at h
        cases h

theorem local_readExponent : LocalScan readExponent := by
  intro cs n rest h
  cases cs with
  | nil => cases h
  | cons c tail =>
      by_cases hminus : c = '-'
      · subst hminus
        obtain ⟨d, front, rfl, -, hfront⟩ := local_exponentDigits true h
        exact ⟨'-' :: d :: front, rfl, hfront⟩
      by_cases hplus : c = '+'
      · subst hplus
        obtain ⟨d, front, rfl, -, hfront⟩ := local_exponentDigits false h
        exact ⟨'+' :: d :: front, rfl, hfront⟩
      · rw [readExponent_digit hminus hplus] at h
        obtain ⟨d, front, hcs, -, hfront⟩ := local_exponentDigits false h
        obtain ⟨rfl, -⟩ := List.cons.inj hcs
        refine ⟨c :: front, hcs, fun other hother => ?_⟩
        rw [List.cons_append, readExponent_digit hminus hplus]
        exact hfront other hother

/-- The exponent of a numeral, zero if none is written. -/
def optionalExponent (cs : List Char) : Except Malformed (Int × List Char) :=
  match cs with
  | e :: rest => if e = 'e' ∨ e = 'E' then readExponent rest else pure (0, cs)
  | [] => pure (0, cs)

theorem readScaled_eq (negative : Bool) (digits places : Nat) (cs : List Char) :
    readScaled negative digits places cs = do
      let (power, rest) ← optionalExponent cs
      let n ← realNumber negative digits (power - places)
      return (n, rest) := by
  cases cs with
  | nil => rfl
  | cons c tail => by_cases hc : c = 'e' ∨ c = 'E' <;> simp [readScaled, optionalExponent, hc]

theorem local_optionalExponent : LocalScan optionalExponent := by
  intro cs n rest h
  cases cs with
  | nil =>
      cases h
      exact ⟨[], rfl, fun other hother => by cases other <;> [rfl; cases hother]⟩
  | cons c tail =>
      by_cases hc : c = 'e' ∨ c = 'E'
      · simp only [optionalExponent, if_pos hc] at h
        obtain ⟨front, rfl, hfront⟩ := local_readExponent _ _ _ h
        refine ⟨c :: front, rfl, fun other hother => ?_⟩
        simp only [List.cons_append, optionalExponent, if_pos hc, hfront other hother]
      · simp only [optionalExponent, if_neg hc] at h
        cases h
        refine ⟨[], rfl, fun other hother => ?_⟩
        obtain ⟨tail', rfl⟩ := List.head?_eq_some_iff.1 hother
        simp only [List.nil_append, optionalExponent, if_neg hc]
        rfl

theorem local_readScaled (negative : Bool) (digits places : Nat) :
    LocalScan (readScaled negative digits places) := by
  intro cs n rest h
  rw [readScaled_eq] at h
  obtain ⟨⟨power, mid⟩, hpower, h⟩ := Outcome.bind_eq_ok.1 h
  obtain ⟨m, hm, h⟩ := Outcome.bind_eq_ok.1 h
  cases h
  obtain ⟨front, rfl, hfront⟩ := local_optionalExponent _ _ _ hpower
  refine ⟨front, rfl, fun other hother => ?_⟩
  rw [readScaled_eq]
  exact Outcome.bind_eq_ok.2 ⟨(power, other), hfront other hother, Outcome.bind_eq_ok.2 ⟨n, hm, rfl⟩⟩

/-- What follows the whole part of a numeral, if it is no fraction. -/
theorem readTail_of_head? (negative : Bool) (whole : List Char) {cs : List Char} (h : cs.head? ≠ some '.') :
    readTail negative whole cs =
      match cs.head?.all fun c => c != 'e' && c != 'E',
        keptInteger? negative (Binary64.digitsValue whole) with
      | true, some n => .ok (n, cs)
      | _, _ => readScaled negative (Binary64.digitsValue whole) 0 cs := by
  unfold readTail
  split
  · simp at h
  · cases cs <;> rfl

theorem local_readTail (negative : Bool) (whole : List Char) : LocalScan (readTail negative whole) := by
  intro cs n rest h
  -- whether there is a fraction is seen from the first character, so the same case applies to the new text
  by_cases hpoint : cs.head? = some '.'
  · obtain ⟨tail, rfl⟩ := List.head?_eq_some_iff.1 hpoint
    simp only [readTail] at h
    split at h
    · cases h
    · next hfraction =>
        obtain ⟨front, hfront, hscaled⟩ := local_readScaled _ _ _ _ _ _ h
        refine ⟨'.' :: (tail.takeWhile Char.isDigit ++ front), ?_, fun other hother => ?_⟩
        · rw [List.cons_append, List.append_assoc, ← hfront, List.takeWhile_append_dropWhile]
        · have hhead : (front ++ other).head? = (tail.dropWhile Char.isDigit).head? := by
            rw [hfront]
            exact head?_append_congr hother
          obtain ⟨htake, hdrop⟩ := span_swap hhead
          rw [List.cons_append, List.append_assoc]
          simp only [readTail, htake, hdrop, hfraction]
          exact hscaled other hother
  · rw [readTail_of_head? negative whole hpoint] at h
    split at h
    · next hplain hkept =>
        cases h
        refine ⟨[], rfl, fun other hother => ?_⟩
        rw [List.nil_append, readTail_of_head? negative whole (hother ▸ hpoint), hother, hplain, hkept]
    · next hscaled =>
        obtain ⟨front, rfl, hfront⟩ := local_readScaled _ _ _ _ _ _ h
        refine ⟨front, rfl, fun other hother => ?_⟩
        have hhead : (front ++ other).head? = (front ++ rest).head? := head?_append_congr hother
        rw [readTail_of_head? negative whole (hhead ▸ hpoint), hhead]
        split
        · next hplain hkept => exact absurd hkept (hscaled _ hplain)
        · exact hfront other hother

theorem readNumber_zero (negative : Bool) (cs : List Char) :
    readNumber negative ('0' :: cs) =
      if cs.head?.any Char.isDigit then .error .invalidNumber else readTail negative ['0'] cs := by
  cases cs with
  | nil => rfl
  | cons d cs =>
      simp only [readNumber]
      rfl

/-- A numeral has at least one digit. -/
theorem readNumber_takes (negative : Bool) {cs rest : List Char} {n : Number}
    (h : readNumber negative cs = .ok (n, rest)) :
    ∃ front, front ≠ [] ∧ cs = front ++ rest ∧
      ∀ other, other.head? = rest.head? → readNumber negative (front ++ other) = .ok (n, other) := by
  cases cs with
  | nil => cases h
  | cons c tail =>
      by_cases hzero : c = '0'
      · subst hzero
        rw [readNumber_zero] at h
        split at h
        · cases h
        · next hdigit =>
            obtain ⟨front, rfl, hfront⟩ := local_readTail _ _ _ _ _ h
            refine ⟨'0' :: front, List.cons_ne_nil _ _, rfl, fun other hother => ?_⟩
            rw [List.cons_append, readNumber_zero, head?_append_congr hother, if_neg hdigit]
            exact hfront other hother
      · by_cases hc : c.isDigit
        · simp only [readNumber, if_neg hzero, if_pos hc] at h
          obtain ⟨front, hfront, htail⟩ := local_readTail _ _ _ _ _ h
          have hcons : (c :: tail).takeWhile Char.isDigit = c :: tail.takeWhile Char.isDigit := by
            simp [hc]
          refine ⟨(c :: tail).takeWhile Char.isDigit ++ front, by simp [hcons], ?_, fun other hother => ?_⟩
          · rw [List.append_assoc, ← hfront, List.takeWhile_append_dropWhile]
          · have hhead : (front ++ other).head? = ((c :: tail).dropWhile Char.isDigit).head? := by
              rw [hfront]
              exact head?_append_congr hother
            obtain ⟨htake, hdrop⟩ := span_swap hhead
            rw [List.append_assoc]
            rw [hcons] at htail htake hdrop ⊢
            rw [List.cons_append] at htake hdrop ⊢
            simp only [readNumber, if_neg hzero, if_pos hc, htake, hdrop]
            exact htail other hother
        · simp [readNumber, hzero, hc] at h

end SchemaTyping.Json
