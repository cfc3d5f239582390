import SchemaTyping.Document.Body
import SchemaTyping.Proofs.Outcome
import SchemaTyping.Proofs.Table

set_option autoImplicit false

/-! # Attributes as they are written

An attribute `Fits` if its value is of the kind that its key asks for. Attributes that fit are stored in the
rule one after the other, and one that does not is refused (`Body.foldlM_readAttribute_eq_ok_iff`). A key
stands in an object once, so each part of the rule is stored at most once and the order does not matter: the
rule has what stands under the keys, and the defaults where nothing does (`Body.HasAttributes.foldl_assign`). -/

namespace SchemaTyping

/-! ## Values of one kind -/

namespace Json

/-- The text that a value is. -/
def text? : Json → Option String
  | .text s => some s
  | _ => none

/-- The truth value that a value is. -/
def boolean? : Json → Option Bool
  | .boolean b => some b
  | _ => none

/-- The number that a value is, as a double. -/
def double? : Json → Option Binary64
  | .number n => some n.toBinary64
  | _ => none

end Json

/-- A valid key for type names has no other meaning. -/
theorem Options.overrideKeyName_of_validate {o : Options} (h : o.validate = .ok ()) :
    o.overrideKeyName ∉ ruleAttributes := by
  unfold validate at h
  split at h
  · cases h
  · split at h
    · cases h
    · next hreserved =>
        simp only [isReservedKey, Bool.or_eq_true, not_or] at hreserved
        simpa using hreserved.2

namespace Body

/-! ## One attribute -/

/-- The value is what the key asks for. A key that is not mentioned here goes with any value. -/
structure Fits (overrideKey key : String) (value : Json) : Prop where
  name : key = overrideKey → ∃ name, value = .text name ∧ name ≠ ""
  optional : key = "optional" → ∃ b, value = .boolean b
  bound : key = "min" ∨ key = "max" → ∃ n, value = .number n
  regex : key = "regex" → ∃ pattern, value = .text pattern ∧ Regex.isValid pattern
  label : key = "label" → ∃ label, value = .text label

/-- A rule with an attribute stored in it. -/
def assign (overrideKey : String) (rule : Rule) : String × Json → Rule
  | (key, value) =>
    { rule with
      explicitName := if key = overrideKey then value.text? else rule.explicitName
      optionality :=
        if key = "optional" then .constant (value.boolean?.getD false) else rule.optionality
      constraints :=
        { min := if key = "min" then value.double? else rule.constraints.min
          max := if key = "max" then value.double? else rule.constraints.max
          regex := if key = "regex" then value.text? else rule.constraints.regex
          label := if key = "label" then value.text? else rule.constraints.label
          defaultValue := if key = "defaultValue" then some value else rule.constraints.defaultValue } }

section

variable {scope : Scope} {overrideKey key : String} {value : Json} {rule rule' : Rule}

theorem fits_overrideKey_iff (hkey : overrideKey ∉ ruleAttributes) :
    Fits overrideKey overrideKey value ↔ ∃ name, value = .text name ∧ name ≠ "" := by
  simp only [ruleAttributes, List.mem_cons, List.not_mem_nil, or_false, not_or] at hkey
  refine ⟨fun h => h.name rfl, fun h => ⟨fun _ => h, ?_, ?_, ?_, ?_⟩⟩
  all_goals simp [hkey]

theorem fits_iff_of_ne (hkey : key ≠ overrideKey) :
    Fits overrideKey key value ↔
      (key = "optional" → ∃ b, value = .boolean b) ∧
        (key = "min" ∨ key = "max" → ∃ n, value = .number n) ∧
        (key = "regex" → ∃ pattern, value = .text pattern ∧ Regex.isValid pattern) ∧
        (key = "label" → ∃ label, value = .text label) := by
  constructor
  · exact fun h => ⟨h.optional, h.bound, h.regex, h.label⟩
  · rintro ⟨hoptional, hbound, hregex, hlabel⟩
    exact ⟨fun heq => absurd heq hkey, hoptional, hbound, hregex, hlabel⟩

/-- **An attribute is read exactly when it fits**, and then it is stored. -/
theorem readAttribute_eq_ok_iff (hkey : scope.overrideKey ∉ ruleAttributes) (place : String) :
    readAttribute scope place rule (key, value) = .ok rule' ↔
      Fits scope.overrideKey key value ∧ assign scope.overrideKey rule (key, value) = rule' := by
  by_cases hname : key = scope.overrideKey
  · subst hname
    rw [fits_overrideKey_iff hkey]
    simp only [ruleAttributes, List.mem_cons, List.not_mem_nil, or_false, not_or] at hkey
    simp only [readAttribute, assign, hkey, if_true, if_false]
    cases value with
    | text name => by_cases hempty : name = "" <;> simp [hempty, refuse, Json.text?]
    | _ => simp [refuse]
  · rw [fits_iff_of_ne hname]
    simp only [readAttribute, assign, if_neg hname]
    split
    · cases value <;> simp [refuse, Json.boolean?]
    · cases value <;> simp [refuse, Json.double?]
    · cases value <;> simp [refuse, Json.double?]
    · cases value with
      | text pattern => by_cases hvalid : Regex.isValid pattern <;> simp [refuse, hvalid, Json.text?]
      | _ => simp [refuse]
    · cases value <;> simp [refuse, Json.text?]
    · simp
    · simp_all

end

/-! ## All attributes -/

/-- The rule has what stands under the keys of the attributes, and the defaults where nothing does. -/
structure HasAttributes (overrideKey : String) (members : Json.Members) (rule : Rule) : Prop where
  explicitName : rule.explicitName = (members.get? overrideKey).bind Json.text?
  optionality :
    rule.optionality = .constant (((members.get? "optional").bind Json.boolean?).getD false)
  min : rule.constraints.min = (members.get? "min").bind Json.double?
  max : rule.constraints.max = (members.get? "max").bind Json.double?
  regex : rule.constraints.regex = (members.get? "regex").bind Json.text?
  label : rule.constraints.label = (members.get? "label").bind Json.text?
  defaultValue : rule.constraints.defaultValue = members.get? "defaultValue"

section

variable {scope : Scope} {overrideKey : String} {rule rule' : Rule} {members : Json.Members}

theorem hasAttributes_bareRule {candidates : List Candidate} (h : bareRule candidates = .ok rule) :
    HasAttributes overrideKey [] rule := by
  cases candidates with
  | nil => cases h
  | cons first rest =>
      cases h
      exact ⟨rfl, rfl, rfl, rfl, rfl, rfl, rfl⟩

theorem foldlM_readAttribute_eq_ok_iff (hkey : scope.overrideKey ∉ ruleAttributes) (place : String) :
    members.foldlM (readAttribute scope place) rule = .ok rule' ↔
      (∀ member ∈ members, Fits scope.overrideKey member.1 member.2) ∧
        members.foldl (assign scope.overrideKey) rule = rule' := by
  induction members generalizing rule with
  | nil => simp [pure, Except.pure]
  | cons member rest ih =>
      rw [List.foldlM_cons, Outcome.bind_eq_ok, List.forall_mem_cons, List.foldl_cons]
      constructor
      · rintro ⟨stored, hstored, hrest⟩
        obtain ⟨hfits, rfl⟩ := (readAttribute_eq_ok_iff hkey place).1 hstored
        obtain ⟨hothers, hfold⟩ := ih.1 hrest
        exact ⟨⟨hfits, hothers⟩, hfold⟩
      · rintro ⟨⟨hfits, hothers⟩, hfold⟩
        exact ⟨_, (readAttribute_eq_ok_iff hkey place).2 ⟨hfits, rfl⟩, ih.2 ⟨hothers, hfold⟩⟩

/-- A part of the rule that one key decides is what stands under this key. -/
theorem foldl_assign {β : Type} (part : Rule → β) {key : String} {store : Json → β}
    (hpart : ∀ rule member,
      part (assign overrideKey rule member) = if member.1 = key then store member.2 else part rule)
    (hnames : members.names.Nodup) (rule : Rule) :
    part (members.foldl (assign overrideKey) rule)
      = ((members.get? key).map store).getD (part rule) := by
  induction members generalizing rule with
  | nil => rfl
  | cons member rest ih =>
      obtain ⟨other, value⟩ := member
      obtain ⟨hnew, hrest⟩ := List.nodup_cons.1 hnames
      rw [List.foldl_cons, ih hrest, hpart, Table.get?]
      by_cases hother : other = key
      · have hnone : Table.get? key rest = none := Table.get?_eq_none_iff.2 (hother ▸ hnew)
        simp [hother, hnone]
      · simp [hother]

/-- **Storing attributes one after the other**, in whatever order they stand. -/
theorem HasAttributes.foldl_assign (h : HasAttributes overrideKey [] rule) (hnames : members.names.Nodup) :
    HasAttributes overrideKey members (members.foldl (assign overrideKey) rule) := by
  have stored {β : Type} (part : Rule → Option β) (key : String) (store : Json → Option β)
      (hpart : ∀ rule member,
        part (assign overrideKey rule member) = if member.1 = key then store member.2 else part rule)
      (hnone : part rule = none) :
      part (members.foldl (assign overrideKey) rule) = (members.get? key).bind store := by
    rw [Body.foldl_assign part hpart hnames, hnone]
    cases members.get? key <;> rfl
  have hoptionality : (members.foldl (assign overrideKey) rule).optionality
      = ((members.get? "optional").map fun value => .constant (value.boolean?.getD false)).getD
          rule.optionality :=
    Body.foldl_assign Rule.optionality (fun _ _ => rfl) hnames rule
  constructor
  · exact stored Rule.explicitName overrideKey Json.text? (fun _ _ => rfl) h.explicitName
  · rw [hoptionality, h.optionality]
    cases members.get? "optional" <;> rfl
  · exact stored (·.constraints.min) "min" Json.double? (fun _ _ => rfl) h.min
  · exact stored (·.constraints.max) "max" Json.double? (fun _ _ => rfl) h.max
  · exact stored (·.constraints.regex) "regex" Json.text? (fun _ _ => rfl) h.regex
  · exact stored (·.constraints.label) "label" Json.text? (fun _ _ => rfl) h.label
  · rw [stored (·.constraints.defaultValue) "defaultValue" some (fun _ _ => rfl) h.defaultValue,
      Option.bind_fun_some]

end

end Body

end SchemaTyping
