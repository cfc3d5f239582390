import SchemaTyping.Proofs.Json.Layout
import SchemaTyping.Proofs.Registry.Literals
import SchemaTyping.Proofs.Registry.Names
import SchemaTyping.Proofs.Resolution.Typing

set_option autoImplicit false

/-! # The literals of a holder of values

The values of a holder make a choice of literals unless a list or an object is among them; then the first such
value is reported. Each literal stands in the choice once, at its first place, and numbers count as doubles, so
`1` and `1.0` are one literal.

In a choice the literals are told apart by their texts: each is read back from its own, so no two of them look
alike. `literalsType_of_json` states this of the plain ones (`Literal.IsPlain`), whose numbers are written digit
by digit; `Literal.Proper.read_back` has it for every double. -/

namespace SchemaTyping

namespace Literal

variable {l : Literal} {j : Json}

/-! ## Literals of values -/

theorem ofJson?_eq_none_iff : ofJson? j = none ↔ ¬ j.IsScalar := by
  cases j <;> simp [ofJson?, Json.IsScalar]

theorem exists_ofJson?_iff : (∃ l, ofJson? j = some l) ↔ j.IsScalar := by
  rw [← Option.ne_none_iff_exists', ne_eq, ofJson?_eq_none_iff, not_not]

/-! ## Plain literals -/

/-- Null, a boolean, a string, or an integer of less than 53 bits. -/
def IsPlain : Literal → Prop
  | .number x => ∃ i : Int, x = .finite (.ofInt i) ∧ i.natAbs < 1 <<< 53
  | _ => True

theorem IsPlain.proper (h : l.IsPlain) : l.Proper := by
  cases l with
  | number x =>
      obtain ⟨i, rfl, hi⟩ := h
      exact ⟨_, rfl, Binary64.isDouble_of_ofInt (if_pos (Nat.le_of_lt hi))⟩
  | _ => trivial

end Literal

/-! ## Choices of literals -/

section

variable {path : String} {js : List Json}

theorem literal?_ofJson_eq_ok {j : Json} {l : Literal} :
    EnumValue.literal? path (.ofJson j) = .ok l ↔ Literal.ofJson? j = some l := by
  unfold EnumValue.ofJson
  split
  · next l' hl' => simp [EnumValue.literal?, hl']
  · next hnone => simp [EnumValue.literal?, hnone]

theorem literal?_ofJson_eq_error {j : Json} {e : ResolveError} :
    EnumValue.literal? path (.ofJson j) = .error e ↔
      ¬ j.IsScalar ∧ e = .unclassified path (.structuredValue j) := by
  rw [← Literal.ofJson?_eq_none_iff]
  unfold EnumValue.ofJson
  split
  · next l' hl' => simp [EnumValue.literal?, hl']
  · next hnone => simp [EnumValue.literal?, hnone, eq_comm]

theorem exists_mapM_literal?_iff :
    (∃ ls, js.mapM (EnumValue.literal? path ∘ EnumValue.ofJson) = .ok ls) ↔ ∀ j ∈ js, j.IsScalar := by
  rw [Outcome.exists_mapM_eq_ok_iff]
  simp only [Function.comp_apply, literal?_ofJson_eq_ok, Literal.exists_ofJson?_iff]

/-- The first list or object among the values is reported. -/
theorem literalsType_eq_error_iff {e : ResolveError} :
    literalsType path (js.map .ofJson) = .error e ↔
      ∃ before j after, js = before ++ j :: after ∧ (∀ i ∈ before, i.IsScalar) ∧ ¬ j.IsScalar ∧
        e = .unclassified path (.structuredValue j) := by
  rw [literalsType, Outcome.bind_pure_eq_error, List.mapM_map, Outcome.mapM_eq_error_iff]
  constructor
  · rintro ⟨before, j, after, ls, hjs, hbefore, hj⟩
    exact ⟨before, j, after, hjs, exists_mapM_literal?_iff.1 ⟨ls, hbefore⟩, literal?_ofJson_eq_error.1 hj⟩
  · rintro ⟨before, j, after, hjs, hbefore, hj⟩
    obtain ⟨ls, hls⟩ := exists_mapM_literal?_iff.2 hbefore
    exact ⟨before, j, after, ls, hjs, hls, literal?_ofJson_eq_error.2 hj⟩

theorem filterMap_ofJson?_of_mapM {ls : List Literal}
    (h : js.mapM (EnumValue.literal? path ∘ EnumValue.ofJson) = .ok ls) :
    js.filterMap Literal.ofJson? = ls := by
  have hall := Outcome.mapM_eq_ok_iff.1 h
  clear h
  induction hall with
  | nil => rfl
  | cons hl _ ih => rw [List.filterMap_cons, literal?_ofJson_eq_ok.1 hl, ih]

/-- Scalars give their literals, each at its first place. -/
theorem literalsType_eq_ok_iff {t : TypeExpr} :
    literalsType path (js.map .ofJson) = .ok t ↔
      (∀ j ∈ js, j.IsScalar) ∧ ∃ ls, t = .literals ls ∧ FoundInOrder Literal.ofJson? js ls := by
  rw [literalsType, Outcome.bind_eq_ok, List.mapM_map]
  constructor
  · rintro ⟨ls, hls, h⟩
    cases h
    refine ⟨exists_mapM_literal?_iff.1 ⟨ls, hls⟩, _, rfl, ?_⟩
    rw [← filterMap_ofJson?_of_mapM hls]
    exact foundInOrder_eraseDups _ js
  · rintro ⟨hscalar, ls, rfl, hls⟩
    obtain ⟨all, hall⟩ := exists_mapM_literal?_iff.2 hscalar
    refine ⟨all, hall, ?_⟩
    rw [← filterMap_ofJson?_of_mapM hall, hls.unique (foundInOrder_eraseDups _ js)]
    rfl

/-- **A choice of literals keeps every literal once and shows the plain ones as they are.** There is none
    exactly when a list or an object is among the values, and the first of these is reported. Otherwise it has
    the literals of the values in the order in which they come first; the plain ones among them are read back
    from the texts between the bars, and no two of them have the same text. -/
theorem literalsType_of_json (path : String) (js : List Json) :
    ((∃ e, literalsType path (js.map .ofJson) = .error e) ↔ ∃ j ∈ js, ¬ j.IsScalar) ∧
      (∀ e, literalsType path (js.map .ofJson) = .error e ↔
        ∃ before j after, js = before ++ j :: after ∧ (∀ i ∈ before, i.IsScalar) ∧ ¬ j.IsScalar ∧
          e = .unclassified path (.structuredValue j)) ∧
      (∀ t, literalsType path (js.map .ofJson) = .ok t ↔
        (∀ j ∈ js, j.IsScalar) ∧ ∃ ls, t = .literals ls ∧ FoundInOrder Literal.ofJson? js ls) ∧
      ∀ ls objectName, literalsType path (js.map .ofJson) = .ok (.literals ls) →
        (TypeExpr.literals ls).chars objectName = TypeExpr.alternation (ls.map Literal.chars) ∧
          (∀ l ∈ ls, l.IsPlain → ∃ j, Json.ofText l.shown = .ok j ∧ Literal.ofJson? j = some l) ∧
          ls.Pairwise fun l later => l.IsPlain → later.IsPlain → l.chars ≠ later.chars := by
  refine ⟨⟨?_, ?_⟩, fun e => literalsType_eq_error_iff, fun t => literalsType_eq_ok_iff, ?_⟩
  · rintro ⟨e, he⟩
    obtain ⟨before, j, after, rfl, -, hj, -⟩ := literalsType_eq_error_iff.1 he
    exact ⟨j, List.mem_append_right _ List.mem_cons_self, hj⟩
  · rintro ⟨j, hmem, hj⟩
    cases hresult : literalsType path (js.map .ofJson) with
    | error e => exact ⟨e, rfl⟩
    | ok t => exact absurd ((literalsType_eq_ok_iff.1 hresult).1 j hmem) hj
  · intro ls objectName hls
    obtain ⟨-, _, heq, hfound⟩ := literalsType_eq_ok_iff.1 hls
    cases heq
    refine ⟨rfl, fun l _ hl => hl.proper.read_back, ?_⟩
    exact hfound.nodup.imp fun hne hl hlater hchars => hne (hl.proper.chars_inj hlater.proper hchars)

/-- Integers and doubles of the same value are one literal, and so are the zeros. -/
example : literalsType "size" ([.number (.integer 1), .number .negativeZero, .text "1",
    .number (.real 1), .number (.integer 0)].map .ofJson)
      = .ok (.literals [.number (.finite 1), .number (.finite 0), .text "1"]) := rfl

end

end SchemaTyping
