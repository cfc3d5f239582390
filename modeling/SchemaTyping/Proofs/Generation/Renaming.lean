import SchemaTyping.Generate
import SchemaTyping.Proofs.Registry.Mirror

set_option autoImplicit false

/-! # Generation does not see ids

A closed registry is turned into the same declarations, diagnostics and errors as every registry that
mirrors it (`generate_eq_of_mirrors`), and a definition has the same types in both
(`mirrors_indistinguishable`). The proof follows the resolver: the levels by induction, and for
each of its functions one lemma that takes the agreement of the next level as a hypothesis. -/

namespace SchemaTyping

/-! ## Names of an instance -/

namespace Registry

variable {σ : InstanceId → InstanceId} {r s : Registry}

theorem Mirrors.reference? (h : r.Mirrors σ s) (hr : r.Closed) {id : InstanceId} (hid : r.Has id) :
    s.reference? (σ id) = r.reference? id := by
  have hnames : ∀ entries : Table InstanceId, (∀ entry ∈ entries, r.Has entry.2) →
      ((entries.mapValues σ).filter fun entry => entry.2 = σ id).map (·.1)
        = (entries.filter fun entry => entry.2 = id).map (·.1) := by
    intro entries hentries
    induction entries with
    | nil => rfl
    | cons entry rest ih =>
        obtain ⟨name, bound⟩ := entry
        have hrest := ih fun entry hentry => hentries entry (List.mem_cons_of_mem _ hentry)
        have hiff : σ bound = σ id ↔ bound = id :=
          ⟨h.injective _ _ (hentries _ List.mem_cons_self) hid, congrArg σ⟩
        simp only [Table.mapValues] at hrest
        by_cases hbound : bound = id <;>
          simp [Table.mapValues, hbound, hiff, hrest]
  rw [Registry.reference?, h.entries, hnames _ hr.entries, Registry.reference?]

/-- Groups of names with the ids of their instances replaced. -/
def renameGroups (σ : InstanceId → InstanceId) (groups : List (InstanceId × List String)) :
    List (InstanceId × List String) := groups.map fun group => (σ group.1, group.2)

theorem has_of_mem_addToGroup {name : String} {id : InstanceId}
    {groups : List (InstanceId × List String)} (hid : r.Has id)
    (hgroups : ∀ group ∈ groups, r.Has group.1) :
    ∀ group ∈ addToGroup name id groups, r.Has group.1 := by
  induction groups with
  | nil => simpa [addToGroup] using hid
  | cons group rest ih =>
      obtain ⟨other, names⟩ := group
      have hrest := fun group hgroup => hgroups group (List.mem_cons_of_mem _ hgroup)
      have hother := hgroups _ List.mem_cons_self
      unfold addToGroup
      split <;> simp only [List.mem_cons, forall_eq_or_imp]
      · exact ⟨hother, hrest⟩
      · exact ⟨hother, ih hrest⟩

theorem Mirrors.addToGroup_rename (h : r.Mirrors σ s) {name : String} {id : InstanceId}
    {groups : List (InstanceId × List String)} (hid : r.Has id)
    (hgroups : ∀ group ∈ groups, r.Has group.1) :
    addToGroup name (σ id) (renameGroups σ groups)
      = renameGroups σ (addToGroup name id groups) := by
  induction groups with
  | nil => rfl
  | cons group rest ih =>
      obtain ⟨other, names⟩ := group
      have hrest := ih fun group hgroup => hgroups group (List.mem_cons_of_mem _ hgroup)
      have hiff : σ other = σ id ↔ other = id :=
        ⟨h.injective _ _ (hgroups _ List.mem_cons_self) hid, congrArg σ⟩
      simp only [renameGroups] at hrest
      by_cases hother : other = id <;> simp [renameGroups, addToGroup, hother, hiff, hrest]

theorem Mirrors.foldl_addToGroup (h : r.Mirrors σ s) (entries : Table InstanceId) :
    ∀ groups : List (InstanceId × List String),
      (∀ entry ∈ entries, r.Has entry.2) → (∀ group ∈ groups, r.Has group.1) →
        (entries.mapValues σ).foldl (fun groups (name, id) => addToGroup name id groups)
            (renameGroups σ groups)
          = renameGroups σ
              (entries.foldl (fun groups (name, id) => addToGroup name id groups) groups) := by
  induction entries with
  | nil => intro groups _ _; rfl
  | cons entry rest ih =>
      intro groups hentries hgroups
      obtain ⟨name, id⟩ := entry
      have hid : r.Has id := hentries _ List.mem_cons_self
      have hrest := ih (addToGroup name id groups)
        (fun entry hentry => hentries entry (List.mem_cons_of_mem _ hentry))
        (has_of_mem_addToGroup hid hgroups)
      rw [← h.addToGroup_rename hid hgroups] at hrest
      exact hrest

theorem Mirrors.aliases (h : r.Mirrors σ s) (hr : r.Closed) : s.aliases = r.aliases := by
  have hgroups : s.groups = renameGroups σ r.groups := by
    rw [groups, h.entries]
    exact h.foldl_addToGroup r.entries [] hr.entries (by simp)
  rw [Registry.aliases, Registry.aliases, hgroups]
  simp [renameGroups, Function.comp_def]

end Registry

/-! ## Resolution in a mirror -/

variable {σ : InstanceId → InstanceId} {r s : Registry} {o : Options}

/-- Two levels of resolution find the same types, the second one in definitions with their ids replaced,
    as long as the ids are those of instances. -/
def Resolver.Agree (σ : InstanceId → InstanceId) (r : Registry) (next next' : Resolver.Level) :
    Prop :=
  ∀ (d : Definition) (path : String), (∀ id ∈ d.ids, r.Has id) →
    next' (d.rename σ) path = next d path

variable {next next' : Resolver.Level}

theorem Resolver.fieldsBelow_of_agree (hnext : Resolver.Agree σ r next next') {d : Definition}
    (hd : ∀ id ∈ d.ids, r.Has id) (parent : String) :
    Resolver.fieldsBelow ⟨s, o⟩ next' (d.rename σ) parent
      = Resolver.fieldsBelow ⟨r, o⟩ next d parent := by
  simp only [Resolver.fieldsBelow, Definition.childKeys_rename, hnext d _ hd]

theorem Resolver.instanceType_of_mirrors (h : r.Mirrors σ s) (hr : r.Closed)
    (hnext : Resolver.Agree σ r next next') (path : String) {id : InstanceId} (hid : r.Has id) :
    Resolver.instanceType ⟨s, o⟩ next' path (σ id)
      = Resolver.instanceType ⟨r, o⟩ next path id := by
  simp only [Resolver.instanceType, h.reference? hr hid]
  cases r.reference? id with
  | some reference => rfl
  | none =>
      -- an anonymous definition is closed like the one around it, so the next level agrees on it
      obtain ⟨i, hi⟩ := hid.exists_instance?
      rw [h.instance? id hid, hi]
      cases i with
      | values held => rfl
      | schema nested =>
          have hnested : ∀ id ∈ nested.ids, r.Has id := hr.has_of_instance? hi
          simp only [Option.map_some, Instance.rename]
          rw [Resolver.fieldsBelow_of_agree hnext hnested]

theorem Resolver.candidateType_of_mirrors (h : r.Mirrors σ s) (hr : r.Closed)
    (hnext : Resolver.Agree σ r next next') {d : Definition} (hd : ∀ id ∈ d.ids, r.Has id)
    (path : String) {candidate : Candidate} (hids : ∀ id ∈ candidate.id?, r.Has id) :
    Resolver.candidateType ⟨s, o⟩ next' (d.rename σ) path (candidate.rename σ)
      = Resolver.candidateType ⟨r, o⟩ next d path candidate := by
  cases candidate with
  | scalar kind => rfl
  | array => simp only [Candidate.rename, Resolver.candidateType, hnext d _ hd]
  | object =>
      simp only [Candidate.rename, Resolver.candidateType]
      rw [Resolver.fieldsBelow_of_agree hnext hd]
  | nested id => exact Resolver.instanceType_of_mirrors h hr hnext path (hids id rfl)

theorem Resolver.ruleType_of_mirrors (h : r.Mirrors σ s) (hr : r.Closed)
    (hnext : Resolver.Agree σ r next next') {d : Definition} (hd : ∀ id ∈ d.ids, r.Has id)
    (path : String) {rule : Rule} (hrule : ∀ id ∈ rule.ids, r.Has id) :
    Resolver.ruleType ⟨s, o⟩ next' (d.rename σ) path (rule.rename σ)
      = Resolver.ruleType ⟨r, o⟩ next d path rule := by
  have harms : ∀ candidates : List Candidate, (∀ c ∈ candidates, ∀ id ∈ c.id?, r.Has id) →
      (candidates.map (Candidate.rename σ)).mapM
          (Resolver.candidateType ⟨s, o⟩ next' (d.rename σ) path)
        = candidates.mapM (Resolver.candidateType ⟨r, o⟩ next d path) := by
    intro candidates hcandidates
    induction candidates with
    | nil => simp only [List.map_nil, List.mapM_nil]
    | cons candidate rest ih =>
        rw [List.map_cons, List.mapM_cons, List.mapM_cons,
          Resolver.candidateType_of_mirrors h hr hnext hd path
            (hcandidates candidate List.mem_cons_self),
          ih fun c hc => hcandidates c (List.mem_cons_of_mem _ hc)]
  simp only [Resolver.ruleType, Rule.rename]
  cases rule.explicitName with
  | some name => rfl
  | none =>
      simp only
      rw [harms rule.candidates fun c hc id hid => hrule id (List.mem_filterMap.2 ⟨c, hc, hid⟩)]

/-- **Resolution does not see concrete ids.** -/
theorem Resolver.typeAt_of_mirrors (h : r.Mirrors σ s) (hr : r.Closed) (levels : Nat) :
    Resolver.Agree σ r (Resolver.typeAt ⟨r, o⟩ levels) (Resolver.typeAt ⟨s, o⟩ levels) := by
  induction levels with
  | zero => intro d path _; rfl
  | succ levels ih =>
      intro d path hd
      simp only [Resolver.typeAt, Definition.rule?_rename]
      cases hrule : d.rule? path with
      | none => rfl
      | some rule =>
          have hids : ∀ id ∈ rule.ids, r.Has id :=
            fun id hid => hd id (Definition.mem_ids_of_rule? hrule hid)
          simp only [Option.map_some]
          rw [Resolver.ruleType_of_mirrors h hr ih hd path hids]
          rfl

theorem Resolver.resolveField_of_mirrors (h : r.Mirrors σ s) (hr : r.Closed) {d : Definition}
    (hd : ∀ id ∈ d.ids, r.Has id) (path : String) :
    Resolver.resolveField ⟨s, o⟩ path (d.rename σ) = Resolver.resolveField ⟨r, o⟩ path d := by
  simp only [Resolver.resolveField, Resolver.top]
  rw [Resolver.typeAt_of_mirrors h hr _ d _ hd]

/-! ## Generation from a mirror -/

theorem Resolver.keyFields_of_mirrors (h : r.Mirrors σ s) (hr : r.Closed) {d : Definition}
    (hd : ∀ id ∈ d.ids, r.Has id) (typeName : String) (keys : List String) :
    Resolver.keyFields ⟨s, o⟩ typeName (d.rename σ) keys
      = Resolver.keyFields ⟨r, o⟩ typeName d keys := by
  induction keys with
  | nil => rfl
  | cons key rest ih =>
      simp only [Resolver.keyFields, Resolver.resolveField_of_mirrors h hr hd, ih]

theorem Resolver.declare_of_mirrors (h : r.Mirrors σ s) (hr : r.Closed) (name : String)
    {id : InstanceId} (hid : r.Has id) :
    Resolver.declare ⟨s, o⟩ name (σ id) = Resolver.declare ⟨r, o⟩ name id := by
  obtain ⟨i, hi⟩ := hid.exists_instance?
  simp only [Resolver.declare, h.instance? id hid, hi]
  cases i with
  | values held => rfl
  | schema d =>
      simp only [Option.map_some, Instance.rename, Definition.childKeys_rename]
      rw [Resolver.keyFields_of_mirrors h hr (hr.has_of_instance? hi)]

/-- **Generation does not see concrete ids, nor instances that nothing points to.** -/
theorem generate_eq_of_mirrors (h : r.Mirrors σ s) (hr : r.Closed) (o : Options) :
    generate s o = generate r o := by
  have hentries : ∀ entries : Table InstanceId, (∀ entry ∈ entries, r.Has entry.2) →
      (entries.mapValues σ).mapM (fun (name, id) => Resolver.declare ⟨s, o⟩ name id)
        = entries.mapM fun (name, id) => Resolver.declare ⟨r, o⟩ name id := by
    intro entries hall
    induction entries with
    | nil => simp only [Table.mapValues, List.map_nil, List.mapM_nil]
    | cons entry rest ih =>
        obtain ⟨name, id⟩ := entry
        have hrest := ih fun entry hentry => hall entry (List.mem_cons_of_mem _ hentry)
        have hid : r.Has id := hall _ List.mem_cons_self
        rw [Table.mapValues_cons, List.mapM_cons, List.mapM_cons, hrest]
        simp only [Resolver.declare_of_mirrors h hr name hid]
  simp only [generate]
  rw [h.aliases hr, h.entries, hentries r.entries hr.entries]

/-- **Nothing tells a closed registry from one that mirrors it.** The two generate the same under all options,
    with the same reports or the same error, and a definition has the same types in both. -/
theorem mirrors_indistinguishable (h : r.Mirrors σ s) (hr : r.Closed) (o : Options) :
    generate s o = generate r o ∧
      ∀ (d : Definition) (path : String), (∀ id ∈ d.ids, r.Has id) →
        Resolver.resolve ⟨s, o⟩ path (d.rename σ) = Resolver.resolve ⟨r, o⟩ path d ∧
          Resolver.resolveField ⟨s, o⟩ path (d.rename σ) = Resolver.resolveField ⟨r, o⟩ path d := by
  refine ⟨generate_eq_of_mirrors h hr o, fun d path hd => ?_⟩
  refine ⟨?_, Resolver.resolveField_of_mirrors h hr hd path⟩
  simp only [Resolver.resolve, Resolver.top]
  rw [Resolver.typeAt_of_mirrors h hr _ d path hd]

/-- A node with two names, and an anonymous definition that points back to it. -/
def nodes : Registry where
  instances :=
    [.schema { rules :=
       [("next", { candidates := [.nested ⟨1⟩], candidates_ne_nil := List.cons_ne_nil _ _ })] },
     .schema { rules :=
       [("back", { candidates := [.nested ⟨0⟩], candidates_ne_nil := List.cons_ne_nil _ _ })] }]
  entries := [("Node", ⟨0⟩), ("Tree", ⟨0⟩)]

/-- The same with the instances the other way round, behind one that nothing points to. -/
def nodesElsewhere : Registry where
  instances :=
    [.values [],
     .schema { rules :=
       [("back", { candidates := [.nested ⟨2⟩], candidates_ne_nil := List.cons_ne_nil _ _ })] },
     .schema { rules :=
       [("next", { candidates := [.nested ⟨1⟩], candidates_ne_nil := List.cons_ne_nil _ _ })] }]
  entries := [("Node", ⟨2⟩), ("Tree", ⟨2⟩)]

/-- Both declare `Node` with a field `next` that holds an object with a reference back. -/
theorem nodes_indistinguishable :
    nodes.Closed ∧ nodes.Mirrors (fun id => ⟨2 - id.index⟩) nodesElsewhere ∧
      generate nodesElsewhere {} = generate nodes {} ∧
      ∃ g, generate nodesElsewhere {} = .ok g ∧
        g.diagnostics = [.ambiguousReference ["Node", "Tree"]] := by
  have hclosed : nodes.Closed :=
    ⟨by unfold Registry.Has; decide, by unfold Registry.Has; decide⟩
  have hmirrors : nodes.Mirrors (fun id => ⟨2 - id.index⟩) nodesElsewhere := by
    refine ⟨rfl, ?_, ?_⟩
    · rintro ⟨_ | _ | index⟩ hid
      · rfl
      · rfl
      · exact absurd hid (by simp [Registry.Has, nodes])
    · rintro ⟨i⟩ ⟨j⟩ hi hj hij
      have hi : i < 2 := hi
      have hj : j < 2 := hj
      have hij : 2 - i = 2 - j := congrArg InstanceId.index hij
      exact congrArg InstanceId.mk (by omega)
  have hsame := (mirrors_indistinguishable hmirrors hclosed {}).1
  exact ⟨hclosed, hmirrors, hsame, _, rfl, rfl⟩

end SchemaTyping
