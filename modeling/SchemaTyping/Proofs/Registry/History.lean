import SchemaTyping.Proofs.Registry.Closed

set_option autoImplicit false

/-! # Histories of a registry

Whatever is asked of a registry, in any order and with any names and ids, refused or not: its names stay
distinct and inside, its entries only grow at the end, and an id that was handed out stays
(`Registry.perform_after`).

Every operation tests all it has to before it changes anything (`Registry.perform_eq`): whether it is
refused can be told from the registry as it is, and what is not refused is a plain update. This is not
how registering is written, which adds the instance and then binds the name; it holds because the name
was tested before, and the id of an instance just added is there. -/

namespace SchemaTyping

/-- An operation with the names and ids that it is called with. -/
inductive Operation where
  | add (i : Instance)
  | reserve
  | define (id : InstanceId) (i : Instance)
  | bind (name : String) (id : InstanceId)
  | register (name : String) (i : Instance)
  | registerSchema (name : String) (d : Definition)

namespace Registry

/-! ## Performing an operation -/

/-- A refusal, or the id that is handed out if there is one. -/
abbrev Answer := Except RegistryError (Option InstanceId)

/-- An operation that either is refused or replaces the registry. -/
def attempt (r : Registry) : Except RegistryError Registry → Answer × Registry
  | .error e => (.error e, r)
  | .ok next => (.ok none, next)

/-- Registering step by step. Whatever binding the name says, the instance was added by then. -/
def registerStepwise (r : Registry) (name : String) (i : Instance) : Answer × Registry :=
  if r.entries.has name then (.error (.duplicateTypeName name), r)
  else
    let (added, id) := r.add i
    match added.bind name id with
    | .error e => (.error e, added)
    | .ok bound => (.ok (some id), bound)

/-- The answer to an operation and the registry that it leaves. -/
def perform (r : Registry) : Operation → Answer × Registry
  | .add i => (.ok (some (r.add i).2), (r.add i).1)
  | .reserve => (.ok (some r.reserve.2), r.reserve.1)
  | .define id i => r.attempt (r.define id i)
  | .bind name id => r.attempt (r.bind name id)
  | .register name i => r.registerStepwise name i
  | .registerSchema name d => r.registerStepwise name (.schema d)

/-- The registry after several operations. -/
def performAll (r : Registry) (ops : List Operation) : Registry :=
  ops.foldl (fun r op => (r.perform op).2) r

/-- The ids that several operations hand out, in turn. -/
def handedOut (r : Registry) : List Operation → List InstanceId
  | [] => []
  | op :: ops =>
    match r.perform op with
    | (.ok (some id), next) => id :: next.handedOut ops
    | (_, next) => next.handedOut ops

/-- The registry after operations on one that started empty. -/
def after (history : List Operation) : Registry := ({} : Registry).performAll history

/-! ## Refusals come first -/

instance (r : Registry) (id : InstanceId) : Decidable (r.Has id) :=
  inferInstanceAs (Decidable (id.index < r.instances.length))

/-- Why a name cannot be given, if it cannot. -/
def nameRefusal? (r : Registry) (name : String) : Option RegistryError :=
  if name ∈ r.entries.names then some (.duplicateTypeName name) else none

/-- Why an operation is refused, if it is: a missing instance is noticed before a name that is taken. -/
def refusal? (r : Registry) : Operation → Option RegistryError
  | .add _ | .reserve => none
  | .define id _ => if r.Has id then none else some (.unknownInstance id)
  | .bind name id => if r.Has id then r.nameRefusal? name else some (.unknownInstance id)
  | .register name _ | .registerSchema name _ => r.nameRefusal? name

/-- The instance added at the end, under a name. -/
def withNamed (r : Registry) (name : String) (i : Instance) : Registry :=
  (r.add i).1.named name ⟨r.instances.length⟩

/-- What an operation that is not refused does. -/
def accept (r : Registry) : Operation → Option InstanceId × Registry
  | .add i => (some ⟨r.instances.length⟩, (r.add i).1)
  | .reserve => (some ⟨r.instances.length⟩, (r.add (.schema {})).1)
  | .define id i => (none, r.put id i)
  | .bind name id => (none, r.named name id)
  | .register name i => (some ⟨r.instances.length⟩, r.withNamed name i)
  | .registerSchema name d => (some ⟨r.instances.length⟩, r.withNamed name (.schema d))

section

variable (r : Registry)

/-- The name of an instance just added is not refused if it is free. -/
theorem bind_add {name : String} (hname : name ∉ r.entries.names) (i : Instance) :
    (r.add i).1.bind name (r.add i).2 = .ok (r.withNamed name i) :=
  bind_eq_ok (has_add_snd r i) hname

theorem registerStepwise_eq (name : String) (i : Instance) :
    r.registerStepwise name i =
      match r.nameRefusal? name with
      | some e => (.error e, r)
      | none => (.ok (some ⟨r.instances.length⟩), r.withNamed name i) := by
  by_cases hname : name ∈ r.entries.names
  · rw [registerStepwise, nameRefusal?, if_pos (Table.has_iff.2 hname), if_pos hname]
  · rw [registerStepwise, nameRefusal?, if_neg (mt Table.has_iff.1 hname), if_neg hname]
    simp only [r.bind_add hname]
    rfl

theorem register_eq (name : String) (i : Instance) :
    r.register name i =
      match r.nameRefusal? name with
      | some e => .error e
      | none => .ok (r.withNamed name i, ⟨r.instances.length⟩) := by
  by_cases hname : name ∈ r.entries.names
  · rw [register, nameRefusal?, if_pos (Table.has_iff.2 hname), if_pos hname]
  · rw [register, nameRefusal?, if_neg (mt Table.has_iff.1 hname), if_neg hname]
    simp only [r.bind_add hname]
    rfl

/-- Registering step by step is registering: no refusal leaves anything behind. -/
theorem registerStepwise_eq_register (name : String) (i : Instance) :
    r.registerStepwise name i =
      match r.register name i with
      | .error e => (.error e, r)
      | .ok (bound, id) => (.ok (some id), bound) := by
  rw [registerStepwise_eq, register_eq]
  cases r.nameRefusal? name <;> rfl

/-- **What is refused is refused first.** A refused operation leaves the registry as it was. -/
theorem perform_eq (op : Operation) :
    r.perform op =
      match r.refusal? op with
      | some e => (.error e, r)
      | none => (.ok (r.accept op).1, (r.accept op).2) := by
  cases op with
  | add i => rfl
  | reserve => rfl
  | define id i =>
      by_cases hid : r.Has id
      · rw [perform, define_of_has hid, refusal?, if_pos hid]
        rfl
      · rw [perform, define_of_not_has hid, refusal?, if_neg hid]
        rfl
  | bind name id =>
      by_cases hid : r.Has id
      · rw [perform, refusal?, if_pos hid, nameRefusal?]
        by_cases hname : name ∈ r.entries.names
        · rw [bind_of_mem hid hname, if_pos hname]
          rfl
        · rw [bind_eq_ok hid hname, if_neg hname]
          rfl
      · rw [perform, bind_of_not_has hid, refusal?, if_neg hid]
        rfl
  | register name i => exact r.registerStepwise_eq name i
  | registerSchema name d => exact r.registerStepwise_eq name (.schema d)

end

/-! ## One operation -/

/-- Distinct names for instances that are there. -/
structure Consistent (r : Registry) : Prop where
  distinct : r.entries.names.Nodup
  inside : ∀ entry ∈ r.entries, r.Has entry.2

/-- `r'` has further instances and, after the names of `r`, further names. Unlike in an extension the
    content of an instance may be another. -/
structure Grows (r r' : Registry) : Prop where
  entries : r.entries <+: r'.entries
  length_le : r.instances.length ≤ r'.instances.length

section

variable {r r' r'' : Registry} {id : InstanceId}

theorem Grows.refl (r : Registry) : r.Grows r := ⟨List.prefix_rfl, Nat.le_refl _⟩

theorem Grows.trans (h : r.Grows r') (h' : r'.Grows r'') : r.Grows r'' :=
  ⟨h.entries.trans h'.entries, Nat.le_trans h.length_le h'.length_le⟩

theorem Grows.has (h : r.Grows r') {id : InstanceId} (hid : r.Has id) : r'.Has id :=
  Nat.lt_of_lt_of_le hid h.length_le

theorem Grows.get?_eq_some (h : r.Grows r') {name : String} {id : InstanceId}
    (hname : r.get? name = some id) : r'.get? name = some id := Table.get?_of_prefix h.entries hname

theorem Consistent.of_entries_eq (h : r.Consistent) (hentries : r'.entries = r.entries)
    (hgrows : r.Grows r') : r'.Consistent := by
  refine ⟨hentries ▸ h.distinct, fun entry hentry => ?_⟩
  rw [hentries] at hentry
  exact hgrows.has (h.inside entry hentry)

theorem Consistent.named (h : r.Consistent) {name : String} {id : InstanceId} (hid : r.Has id)
    (hname : name ∉ r.entries.names) : (r.named name id).Consistent where
  distinct := by
    show (r.entries ++ [(name, id)] : Table InstanceId).names.Nodup
    rw [Table.names_append]
    refine List.nodup_append.2 ⟨h.distinct, by simp [Table.names], fun a ha b hb hab => ?_⟩
    obtain rfl : b = name := by simpa [Table.names] using hb
    exact hname (hab ▸ ha)
  inside := by
    intro entry hentry
    rcases List.mem_append.1 hentry with hold | hnew
    · exact h.inside entry hold
    · rw [List.mem_singleton.1 hnew]
      exact hid

theorem grows_add (r : Registry) (i : Instance) : r.Grows (r.add i).1 :=
  ⟨List.prefix_rfl, (extends_add r i).length_le⟩

theorem grows_named (r : Registry) (name : String) (id : InstanceId) : r.Grows (r.named name id) :=
  ⟨List.prefix_append _ _, Nat.le_refl _⟩

theorem grows_put (r : Registry) (id : InstanceId) (i : Instance) : r.Grows (r.put id i) :=
  ⟨List.prefix_rfl, Nat.le_of_eq (length_put r id i).symm⟩

theorem grows_accept (r : Registry) (op : Operation) : r.Grows (r.accept op).2 := by
  cases op with
  | add i => exact grows_add r i
  | reserve => exact grows_add r _
  | define id i => exact grows_put r id i
  | bind name id => exact grows_named r name id
  | register name i => exact (grows_add r i).trans (grows_named _ _ _)
  | registerSchema name d => exact (grows_add r _).trans (grows_named _ _ _)

theorem not_mem_of_nameRefusal? {name : String} (h : r.nameRefusal? name = none) :
    name ∉ r.entries.names := by
  intro hname
  rw [nameRefusal?, if_pos hname] at h
  cases h

theorem Consistent.add (h : r.Consistent) (i : Instance) : (r.add i).1.Consistent :=
  h.of_entries_eq rfl (grows_add r i)

theorem Consistent.withNamed (h : r.Consistent) {name : String} (hname : r.nameRefusal? name = none)
    (i : Instance) : (r.withNamed name i).Consistent :=
  (h.add i).named (has_add_snd r i) (not_mem_of_nameRefusal? hname)

theorem Consistent.accept (h : r.Consistent) {op : Operation} (hop : r.refusal? op = none) :
    (r.accept op).2.Consistent := by
  cases op with
  | add i => exact h.add i
  | reserve => exact h.add _
  | define id i => exact h.of_entries_eq rfl (grows_put r id i)
  | bind name id =>
      rw [refusal?] at hop
      split at hop
      · next hid => exact h.named hid (not_mem_of_nameRefusal? hop)
      · cases hop
  | register name i => exact h.withNamed hop i
  | registerSchema name d => exact h.withNamed hop _

/-- Either an operation is refused and nothing happens, or it is not and does what it says. -/
theorem perform_cases (r : Registry) (op : Operation) :
    (∃ e, r.refusal? op = some e ∧ r.perform op = (.error e, r)) ∨
      (r.refusal? op = none ∧ r.perform op = (.ok (r.accept op).1, (r.accept op).2)) := by
  have hperform := r.perform_eq op
  cases hrefusal : r.refusal? op with
  | none => exact Or.inr ⟨rfl, by rw [hperform, hrefusal]⟩
  | some e => exact Or.inl ⟨e, rfl, by rw [hperform, hrefusal]⟩

theorem grows_perform (r : Registry) (op : Operation) : r.Grows (r.perform op).2 := by
  rcases r.perform_cases op with ⟨e, -, h⟩ | ⟨-, h⟩ <;> rw [h]
  · exact Grows.refl r
  · exact grows_accept r op

theorem Consistent.perform (h : r.Consistent) (op : Operation) : (r.perform op).2.Consistent := by
  rcases r.perform_cases op with ⟨e, -, heq⟩ | ⟨hop, heq⟩ <;> rw [heq]
  · exact h
  · exact h.accept hop

/-- The id that an operation hands out is the next one, and only then there is one instance more. -/
theorem accept_fst (r : Registry) (op : Operation) :
    (r.accept op).1 = none ∧ (r.accept op).2.instances.length = r.instances.length ∨
      (r.accept op).1 = some ⟨r.instances.length⟩ ∧
        (r.accept op).2.instances.length = r.instances.length + 1 := by
  cases op <;> simp [accept, add, put, named, withNamed]

/-- The content of an instance is only changed by an operation that says so. -/
theorem instance?_accept {op : Operation} {id : InstanceId} (hid : r.Has id)
    (hop : ∀ i, op ≠ .define id i) : (r.accept op).2.instance? id = r.instance? id := by
  cases op with
  | add i => exact (extends_add r i).instance?_eq hid
  | reserve => exact (extends_add r _).instance?_eq hid
  | define other i => exact instance?_put_of_ne (fun heq => hop i (by rw [heq])) i
  | bind name other => rfl
  | register name i => exact (extends_add r i).instance?_eq hid
  | registerSchema name d => exact (extends_add r _).instance?_eq hid

theorem of_perform_eq_error {op : Operation} {e : RegistryError}
    (h : (r.perform op).1 = .error e) : r.refusal? op = some e ∧ (r.perform op).2 = r := by
  rcases r.perform_cases op with ⟨e', hrefusal, heq⟩ | ⟨-, heq⟩ <;> rw [heq] at h ⊢
  · cases h
    exact ⟨hrefusal, rfl⟩
  · cases h

theorem of_perform_eq_some {op : Operation} {id : InstanceId}
    (h : (r.perform op).1 = .ok (some id)) : ¬ r.Has id ∧ (r.perform op).2.Has id := by
  rcases r.perform_cases op with ⟨e', -, heq⟩ | ⟨-, heq⟩ <;> rw [heq] at h ⊢
  · cases h
  · replace h : (r.accept op).1 = some id := Except.ok.inj h
    rcases r.accept_fst op with ⟨hnone, -⟩ | ⟨hsome, hlength⟩
    · rw [hnone] at h
      cases h
    · rw [hsome] at h
      cases h
      exact ⟨Nat.lt_irrefl _, by simp [Has, hlength]⟩

theorem instance?_perform {op : Operation} {id : InstanceId} (hid : r.Has id)
    (hop : ∀ i, op ≠ .define id i) : (r.perform op).2.instance? id = r.instance? id := by
  rcases r.perform_cases op with ⟨e, -, heq⟩ | ⟨-, heq⟩ <;> rw [heq]
  exact instance?_accept hid hop

theorem perform_define (hid : r.Has id) (i : Instance) :
    r.perform (.define id i) = (.ok none, r.put id i) := by
  rw [perform, define_of_has hid]
  rfl

theorem perform_define_of_not_has (hid : ¬ r.Has id) (i : Instance) :
    r.perform (.define id i) = (.error (.unknownInstance id), r) := by
  rw [perform, define_of_not_has hid]
  rfl

/-! ## Any number of operations -/

theorem performAll_cons (r : Registry) (op : Operation) (ops : List Operation) :
    r.performAll (op :: ops) = (r.perform op).2.performAll ops := rfl

theorem grows_performAll (r : Registry) (ops : List Operation) : r.Grows (r.performAll ops) := by
  induction ops generalizing r with
  | nil => exact Grows.refl r
  | cons op ops ih => exact (grows_perform r op).trans (ih _)

theorem Consistent.performAll (h : r.Consistent) (ops : List Operation) :
    (r.performAll ops).Consistent := by
  induction ops generalizing r with
  | nil => exact h
  | cons op ops ih => exact ih (h.perform op)

theorem consistent_after (history : List Operation) : (after history).Consistent := by
  have hstart : ({} : Registry).Consistent :=
    ⟨List.nodup_nil, fun _ h => absurd h List.not_mem_nil⟩
  exact hstart.performAll history

theorem after_append_cons (history later : List Operation) (op : Operation) :
    after (history ++ op :: later) = ((after history).perform op).2.performAll later := by
  rw [after, performAll, List.foldl_append]
  rfl

/-- Ids are handed out one after the other, without a gap and without going back. -/
theorem handedOut_eq (r : Registry) (ops : List Operation) :
    r.handedOut ops = r.newIds (r.performAll ops) := by
  induction ops generalizing r with
  | nil => exact (newIds_of_length_eq rfl).symm
  | cons op ops ih =>
      have hop := (grows_perform r op).length_le
      rw [performAll_cons, newIds_append hop (grows_performAll _ ops).length_le, ← ih]
      rcases r.perform_cases op with ⟨e, -, h⟩ | ⟨-, h⟩
      · simp only [handedOut, h, newIds_of_length_eq rfl, List.nil_append]
      · rcases r.accept_fst op with ⟨hid, hlength⟩ | ⟨hid, hlength⟩
        · simp only [handedOut, h, hid, newIds_of_length_eq hlength, List.nil_append]
        · have hnew : r.newIds (r.accept op).2 = [⟨r.instances.length⟩] := by simp [newIds, hlength]
          simp only [handedOut, h, hid, hnew, List.singleton_append]

theorem nodup_handedOut (r : Registry) (ops : List Operation) : (r.handedOut ops).Nodup := by
  rw [handedOut_eq]
  exact nodup_newIds _ _

theorem has_of_mem_handedOut {id : InstanceId} {ops : List Operation} (h : id ∈ r.handedOut ops) :
    (r.performAll ops).Has id := by
  rw [handedOut_eq] at h
  exact (mem_newIds.1 h).2

end

/-- **A registry throughout its history.** Let anything be asked of a registry, and then `op`, and then
    anything else. When `op` is asked the names are distinct and inside, and the ids handed out are
    distinct and stay. If `op` is refused nothing changes. If it hands out an id, that id is new and
    stays. If it defines an instance, the content of that one is replaced and nothing else; any other
    operation leaves the content of what is there. The entries are the first ones for ever, so a name
    keeps its id. -/
theorem perform_after (history later : List Operation) (op : Operation) :
    let r := after history
    let answer := (r.perform op).1
    let next := (r.perform op).2
    let last := after (history ++ op :: later)
    r.Consistent ∧
      ((handedOut {} history).Nodup ∧ ∀ id ∈ handedOut {} history, last.Has id) ∧
      (∀ e, answer = .error e → r.refusal? op = some e ∧ next = r) ∧
      (∀ id, answer = .ok (some id) → ¬ r.Has id ∧ next.Has id ∧ last.Has id) ∧
      (∀ id i, op = .define id i →
        next.entries = r.entries ∧ next.instances.length = r.instances.length ∧
          (∀ other, other ≠ id → next.instance? other = r.instance? other) ∧
          (r.Has id → answer = .ok none ∧ next.instance? id = some i)) ∧
      (∀ id, r.Has id → (∀ i, op ≠ .define id i) → next.instance? id = r.instance? id) ∧
      r.entries <+: last.entries ∧ ∀ name id, r.get? name = some id → last.get? name = some id := by
  intro r answer next last
  have hlast : next.Grows last := by
    rw [show last = next.performAll later from after_append_cons history later op]
    exact grows_performAll next later
  have hgrows : r.Grows last := (grows_perform r op).trans hlast
  refine ⟨consistent_after history, ⟨nodup_handedOut _ history, fun id hid => ?_⟩, fun e he => ?_,
    fun id hid => ?_, ?_, fun id hid hop => instance?_perform hid hop, hgrows.entries,
    fun name id hname => hgrows.get?_eq_some hname⟩
  · exact hgrows.has (has_of_mem_handedOut hid)
  · exact of_perform_eq_error he
  · obtain ⟨hnew, hnext⟩ := of_perform_eq_some hid
    exact ⟨hnew, hnext, hlast.has hnext⟩
  · rintro id i rfl
    by_cases hid : r.Has id
    · have hperform : r.perform (.define id i) = (.ok none, r.put id i) := perform_define hid i
      refine ⟨?_, ?_, fun other hother => ?_, fun _ => ⟨congrArg Prod.fst hperform, ?_⟩⟩ <;>
        rw [show next = r.put id i from congrArg Prod.snd hperform]
      · rfl
      · exact length_put r id i
      · exact instance?_put_of_ne hother i
      · exact instance?_put_self hid i
    · have hnext : next = r := congrArg Prod.snd (perform_define_of_not_has hid i)
      rw [hnext]
      exact ⟨rfl, rfl, fun _ _ => rfl, fun h => absurd h hid⟩

/-- A second definition under one name is not even added. -/
example :
    (after [.registerSchema "Person" {}, .registerSchema "Person" {}]).instances.length = 1 := rfl

end Registry

end SchemaTyping
