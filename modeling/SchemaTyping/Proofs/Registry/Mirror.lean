import SchemaTyping.Proofs.Registry.Closed

set_option autoImplicit false

/-! # Mirrors of a registry

Ids only say which instance is meant. `Registry.Mirrors σ r s` states that `s` is `r` with every id
replaced through `σ`; `s` may hold further instances, which nothing in the part that mirrors `r` points
to. Two registries that grow in step stay mirrors of each other: `Registry.InStep σ r s` also fixes what
`σ` does to the ids that neither has handed out yet. -/

namespace SchemaTyping

/-! ## Replacing ids -/

/-- A candidate with its id replaced. -/
def Candidate.rename (σ : InstanceId → InstanceId) : Candidate → Candidate
  | .nested id => .nested (σ id)
  | candidate => candidate

/-- A rule with its ids replaced. -/
def Rule.rename (σ : InstanceId → InstanceId) (rule : Rule) : Rule :=
  { rule with
    candidates := rule.candidates.map (Candidate.rename σ)
    candidates_ne_nil := fun h => rule.candidates_ne_nil (List.map_eq_nil_iff.1 h) }

/-- A definition with its ids replaced. -/
def Definition.rename (σ : InstanceId → InstanceId) (d : Definition) : Definition :=
  { rules := d.rules.mapValues (Rule.rename σ) }

/-- An instance with its ids replaced. -/
def Instance.rename (σ : InstanceId → InstanceId) : Instance → Instance
  | .schema d => .schema (d.rename σ)
  | .values held => .values held

/-! ### Renamings that do the same -/

section

variable {σ τ : InstanceId → InstanceId}

theorem Rule.rename_congr {rule : Rule} (h : ∀ id ∈ rule.ids, σ id = τ id) :
    rule.rename σ = rule.rename τ := by
  have hcandidates : rule.candidates.map (Candidate.rename σ)
      = rule.candidates.map (Candidate.rename τ) := by
    refine List.map_congr_left fun candidate hcandidate => ?_
    cases candidate with
    | nested id => exact congrArg Candidate.nested (h id (Rule.mem_ids.2 hcandidate))
    | _ => rfl
  simp only [Rule.rename, hcandidates]

theorem Definition.rename_congr {d : Definition} (h : ∀ id ∈ d.ids, σ id = τ id) :
    d.rename σ = d.rename τ := by
  refine congrArg Definition.mk (List.map_congr_left fun entry hentry => ?_)
  exact congrArg (Prod.mk entry.1)
    (Rule.rename_congr fun id hid => h id (List.mem_flatMap.2 ⟨entry, hentry, hid⟩))

theorem Instance.rename_congr {i : Instance} (h : ∀ id ∈ i.ids, σ id = τ id) :
    i.rename σ = i.rename τ := by
  cases i with
  | schema d => exact congrArg Instance.schema (Definition.rename_congr h)
  | values held => rfl

theorem Candidate.rename_rename (σ τ : InstanceId → InstanceId) (candidate : Candidate) :
    (candidate.rename σ).rename τ = candidate.rename (τ ∘ σ) := by
  cases candidate <;> rfl

theorem Rule.rename_rename (σ τ : InstanceId → InstanceId) (rule : Rule) :
    (rule.rename σ).rename τ = rule.rename (τ ∘ σ) := by
  simp [Rule.rename, Function.comp_def, Candidate.rename_rename]

theorem Definition.rename_rename (σ τ : InstanceId → InstanceId) (d : Definition) :
    (d.rename σ).rename τ = d.rename (τ ∘ σ) := by
  simp [Definition.rename, Table.mapValues, Function.comp_def, Rule.rename_rename]

theorem Instance.rename_rename (σ τ : InstanceId → InstanceId) (i : Instance) :
    (i.rename σ).rename τ = i.rename (τ ∘ σ) := by
  cases i with
  | schema d => exact congrArg Instance.schema (d.rename_rename σ τ)
  | values held => rfl

theorem Instance.rename_id (i : Instance) : i.rename id = i := by
  have hcandidate : Candidate.rename id = id := by
    funext candidate
    cases candidate <;> rfl
  have hrule (rule : Rule) : rule.rename id = rule := by simp [Rule.rename, hcandidate]
  cases i with
  | schema d => simp [Instance.rename, Definition.rename, Table.mapValues, hrule]
  | values held => rfl

/-- A renaming that moves none of its ids leaves an instance as it is. -/
theorem Instance.rename_eq_self {i : Instance} (h : ∀ id ∈ i.ids, σ id = id) : i.rename σ = i :=
  (Instance.rename_congr (τ := id) h).trans i.rename_id

end

theorem Definition.rule?_rename (σ : InstanceId → InstanceId) (d : Definition) (path : String) :
    (d.rename σ).rule? path = (d.rule? path).map (Rule.rename σ) :=
  Table.get?_mapValues _ _ _

theorem Definition.insert_rename (σ : InstanceId → InstanceId) (d : Definition) (path : String)
    (rule : Rule) : (d.rename σ).insert path (rule.rename σ) = (d.insert path rule).rename σ :=
  congrArg Definition.mk (Table.insert_mapValues _ _ _ _)

theorem Definition.childKeys_rename (σ : InstanceId → InstanceId) (d : Definition)
    (parent wildcard : String) :
    (d.rename σ).childKeys parent wildcard = d.childKeys parent wildcard := by
  simp only [Definition.childKeys, Definition.rename, Table.names_mapValues]

namespace Registry

/-! ## Mirrors -/

/-- `s` is `r` with its ids replaced, and possibly further instances. -/
structure Mirrors (σ : InstanceId → InstanceId) (r s : Registry) : Prop where
  entries : s.entries = r.entries.mapValues σ
  instance? : ∀ id, r.Has id → s.instance? (σ id) = (r.instance? id).map (Instance.rename σ)
  injective : ∀ id id', r.Has id → r.Has id' → σ id = σ id' → id = id'

/-! ## Growing in step -/

/-- `s` is `r` with its ids replaced, and the ids that the two hand out from now on correspond. -/
structure InStep (σ : InstanceId → InstanceId) (r s : Registry) : Prop where
  entries : s.entries = r.entries.mapValues σ
  instance? : ∀ id, r.Has id → s.instance? (σ id) = (r.instance? id).map (Instance.rename σ)
  injective : ∀ id id', σ id = σ id' → id = id'
  next : ∀ k, σ ⟨r.instances.length + k⟩ = ⟨s.instances.length + k⟩

variable {σ : InstanceId → InstanceId} {r s : Registry}

theorem InStep.mirrors (h : r.InStep σ s) : r.Mirrors σ s :=
  ⟨h.entries, h.instance?, fun id id' _ _ => h.injective id id'⟩

theorem InStep.has (h : r.InStep σ s) {id : InstanceId} (hid : r.Has id) : s.Has (σ id) := by
  obtain ⟨i, hi⟩ := hid.exists_instance?
  exact has_of_instance? ((h.instance? id hid).trans (by rw [hi]; rfl))

theorem InStep.add_snd (h : r.InStep σ s) (i : Instance) :
    (s.add (i.rename σ)).2 = σ (r.add i).2 := (h.next 0).symm

theorem InStep.add (h : r.InStep σ s) (i : Instance) :
    (r.add i).1.InStep σ (s.add (i.rename σ)).1 where
  entries := h.entries
  instance? := fun id hid => by
    rcases Nat.lt_succ_iff_lt_or_eq.1 (show id.index < r.instances.length + 1 by
      simpa [Has, Registry.add] using hid) with hold | hnew
    · have hs : (σ id).index < s.instances.length := h.has hold
      have := h.instance? id hold
      simpa [Registry.instance?, Registry.add, List.getElem?_append_left hold,
        List.getElem?_append_left hs] using this
    · obtain rfl : id = ⟨r.instances.length⟩ := congrArg InstanceId.mk hnew
      have hs : σ ⟨r.instances.length⟩ = ⟨s.instances.length⟩ := h.next 0
      simp [Registry.instance?, Registry.add, hs]
  injective := h.injective
  next := fun k => by
    have := h.next (k + 1)
    simpa [Registry.add, Nat.add_assoc, Nat.add_comm 1] using this

theorem InStep.reserve (h : r.InStep σ s) : r.reserve.1.InStep σ s.reserve.1 := h.add (.schema {})

/-- Replacing an instance keeps two registries in step. -/
theorem InStep.set (h : r.InStep σ s) {id : InstanceId} (hid : r.Has id) (i : Instance) :
    InStep σ { r with instances := r.instances.set id.index i }
      { s with instances := s.instances.set (σ id).index (i.rename σ) } where
  entries := h.entries
  instance? := fun id' hid' => by
    have hold : r.Has id' := by simpa [Has] using hid'
    by_cases heq : id' = id
    · subst heq
      have hs : (σ id').index < s.instances.length := h.has hold
      have hr : id'.index < r.instances.length := hold
      simp [Registry.instance?, hs, hr]
    · have hs : (σ id).index ≠ (σ id').index := fun hindex =>
        heq (h.injective _ _ (congrArg InstanceId.mk hindex.symm))
      have hr : id.index ≠ id'.index := fun hindex => heq (congrArg InstanceId.mk hindex.symm)
      have := h.instance? id' hold
      simpa [Registry.instance?, List.getElem?_set_ne hs, List.getElem?_set_ne hr] using this
  injective := h.injective
  next := fun k => by simpa using h.next k

theorem InStep.put (h : r.InStep σ s) {id : InstanceId} (hid : r.Has id) (i : Instance) :
    (r.put id i).InStep σ (s.put (σ id) (i.rename σ)) := h.set hid i

/-- Instances correspond under whatever names. -/
theorem InStep.withEntries (h : r.InStep σ s) (entries : Table InstanceId) :
    InStep σ { r with entries := entries } { s with entries := entries.mapValues σ } :=
  ⟨rfl, h.instance?, h.injective, h.next⟩

theorem InStep.trans {τ : InstanceId → InstanceId} {u : Registry} (h : r.InStep σ s)
    (h' : s.InStep τ u) : r.InStep (τ ∘ σ) u where
  entries := by
    rw [h'.entries, h.entries, Table.mapValues_mapValues]
  instance? := fun id hid => by
    rw [Function.comp_apply, h'.instance? _ (h.has hid), h.instance? id hid, Option.map_map]
    exact congrFun (congrArg _ (funext fun i => i.rename_rename σ τ)) _
  injective := fun id id' heq => h.injective _ _ (h'.injective _ _ heq)
  next := fun k => (congrArg τ (h.next k)).trans (h'.next k)

/-- Registries in step that were equally long still are. -/
theorem InStep.length_eq {r' s' : Registry} (h : r.InStep σ s) (h' : r'.InStep σ s')
    (hlength : s.instances.length = r.instances.length)
    (hle : r.instances.length ≤ r'.instances.length) :
    s'.instances.length = r'.instances.length := by
  obtain ⟨k, hk⟩ := Nat.exists_eq_add_of_le hle
  have hnext := h'.next 0
  rw [Nat.add_zero, Nat.add_zero, hk, h.next k, hlength, ← hk] at hnext
  exact (InstanceId.mk.inj hnext).symm

theorem InStep.has_iff (h : r.InStep σ s) (id : InstanceId) : s.Has (σ id) ↔ r.Has id := by
  refine ⟨fun hs => Classical.byContradiction fun hr => ?_, h.has⟩
  -- an id that `r` has not handed out goes to one that `s` has not handed out
  obtain ⟨k, hk⟩ := Nat.exists_eq_add_of_le (Nat.not_lt.1 hr)
  obtain rfl : id = ⟨r.instances.length + k⟩ := congrArg InstanceId.mk hk
  rw [h.next k] at hs
  exact absurd hs (Nat.not_lt.2 (Nat.le_add_right _ _))

end Registry

end SchemaTyping
