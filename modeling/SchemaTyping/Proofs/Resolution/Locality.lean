import SchemaTyping.Proofs.Registry.Keys
import SchemaTyping.Proofs.Resolution.Typing

set_option autoImplicit false

/-! # What the type of a field depends on

Paths are flat texts, and the tree of fields is found again by taking prefixes off them and by joining keys.
Below a path that is not the root this never leaves the part of the definition that lies at the path and below
it (`Definition.part`): a path that is joined there stays there, wildcard or not, and so does every key. The
rest of the definition can be left out, as far as this path is concerned (`Resolver.typeAt_part`), and
definitions with the same part give the field the same type or the same refusal
(`Resolver.resolve_of_part_eq`). A sibling that starts with the same letters lies outside: a part begins with
a point. -/

namespace SchemaTyping

/-! ## The part of a definition -/

namespace Definition

/-- The rules at a path and below it, in order of declaration. -/
def part (d : Definition) (path : String) : Definition where
  rules := d.rules.filter fun entry => Path.atOrBelow path entry.1

variable {d : Definition} {path inner wildcard : String}

theorem rule?_part (h : Path.atOrBelow path inner = true) : (d.part path).rule? inner = d.rule? inner :=
  Table.get?_filter h d.rules

/-- The keys below a path are found among the rules at and below it. -/
theorem childKeys_part (hpath : path ≠ "") (h : Path.atOrBelow path inner = true) :
    (d.part path).childKeys inner wildcard = d.childKeys inner wildcard := by
  have hinner := Path.ne_empty_of_atOrBelow hpath h
  have hkeys : (d.part path).rules.names.filterMap
        (fun other => (Path.below? inner other).map Path.firstSegment)
      = d.rules.names.filterMap fun other => (Path.below? inner other).map Path.firstSegment := by
    -- a rule that is left out has no part in the keys: it is not below the inner path
    simp only [Table.names, part, List.filterMap_map, List.filterMap_filter]
    refine List.filterMap_congr fun entry _ => ?_
    cases hbelow : Path.below? inner entry.1 with
    | none => simp [hbelow]
    | some cs => simp [hbelow, Path.atOrBelow_trans h (Path.atOrBelow_of_below? hinner hbelow)]
  simp only [childKeys, hkeys]

end Definition

/-! ## Resolution in a part -/

namespace Resolver

variable {r : Resolver} {d d' : Definition} {path inner : String} {next : Level}

/-- The type of a rule at a path inside a part, when the next level is the same in the part. -/
theorem ruleType_part (hpath : path ≠ "") (hinner : Path.atOrBelow path inner = true)
    (h : ∀ other, Path.atOrBelow path other = true → next (d.part path) other = next d other)
    (rule : Rule) : r.ruleType next (d.part path) inner rule = r.ruleType next d inner rule := by
  have hjoin : ∀ key, next (d.part path) (Path.join inner key) = next d (Path.join inner key) := by
    intro key
    have hbelow := Path.atOrBelow_join (Path.ne_empty_of_atOrBelow hpath hinner) key
    exact h _ (Path.atOrBelow_trans hinner hbelow)
  have hcandidates : ∀ candidate ∈ rule.candidates,
      r.candidateType next (d.part path) inner candidate = r.candidateType next d inner candidate := by
    intro candidate _
    cases candidate with
    | scalar kind => rfl
    | array => simp only [candidateType, hjoin]
    | object =>
        simp only [candidateType, fieldsBelow, Definition.childKeys_part hpath hinner, hjoin]
    | nested id => rfl
  unfold ruleType
  rw [Outcome.mapM_congr hcandidates]

/-- **Nothing outside a part has an influence on it**, whatever the number of levels. -/
theorem typeAt_part (r : Resolver) (hpath : path ≠ "") (levels : Nat) :
    ∀ inner, Path.atOrBelow path inner = true →
      r.typeAt levels (d.part path) inner = r.typeAt levels d inner := by
  induction levels with
  | zero => exact fun _ _ => rfl
  | succ levels ih =>
      intro inner hinner
      simp only [typeAt, Definition.rule?_part hinner, ruleType_part hpath hinner ih]

/-- **The type of a field depends only on what is declared at its path and below it.** Two definitions with
    the same rules there, in the same order, give it the same type or the same refusal, whatever else they
    declare. -/
theorem resolve_of_part_eq (r : Resolver) (hpath : path ≠ "") (h : d.part path = d'.part path) :
    r.resolve path d = r.resolve path d' := by
  have hpart : ∀ d : Definition, r.resolve path (d.part path) = r.resolve path d := by
    intro d
    simp only [resolve, top, typeAt_part r hpath _ path (Path.atOrBelow_self path)]
  calc r.resolve path d = r.resolve path (d.part path) := (hpart d).symm
    _ = r.resolve path (d'.part path) := by rw [h]
    _ = r.resolve path d' := hpart d'

/-- The lines of an order and of a receipt are declared alike. Around them stand other fields, some of which
    start with the same letters. -/
def orderLines : Definition where
  rules :=
    [("line.$.count", bareRuleOf (.scalar .integer) []),
     ("lineTotal", bareRuleOf (.scalar .number) []),
     ("line", bareRuleOf .array []),
     ("line.$", bareRuleOf .object [])]

@[inherit_doc orderLines]
def receiptLines : Definition where
  rules :=
    [("lines.$", bareRuleOf (.scalar .text) []),
     ("line.$.count", bareRuleOf (.scalar .integer) []),
     ("line", bareRuleOf .array []),
     ("paid", bareRuleOf (.scalar .dateTime) []),
     ("line.$", bareRuleOf .object [])]

theorem resolve_line_alike :
    "line" ≠ "" ∧ orderLines.part "line" = receiptLines.part "line" ∧
      resolve ⟨{}, {}⟩ "line" orderLines = resolve ⟨{}, {}⟩ "line" receiptLines ∧
      resolve ⟨{}, {}⟩ "line" receiptLines
        = .ok (.array (.object [⟨"count", .scalar "number", false⟩])) := by
  have hpath : "line" ≠ "" := by decide
  have hpart : orderLines.part "line" = receiptLines.part "line" := rfl
  exact ⟨hpath, hpart, resolve_of_part_eq _ hpath hpart, rfl⟩

end Resolver

end SchemaTyping
