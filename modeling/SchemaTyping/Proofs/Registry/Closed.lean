import SchemaTyping.Proofs.Table
import SchemaTyping.Registry.Basic

set_option autoImplicit false

/-! # Closed registries

A registry is closed when no name and no instance of it points to an instance that is not there. Adding
an instance keeps a registry closed if the new instance only points to what is there, and so does
replacing the content of an instance. `Registry.Extends` compares two states of one registry: the names
are the same, and what was there still is, under the same ids. -/

namespace SchemaTyping

/-! ## Ids in definitions -/

/-- The instance a candidate points to. -/
def Candidate.id? : Candidate → Option InstanceId
  | .nested id => some id
  | _ => none

/-- The instances a rule points to. -/
def Rule.ids (rule : Rule) : List InstanceId := rule.candidates.filterMap Candidate.id?

/-- The instances a definition points to. -/
def Definition.ids (d : Definition) : List InstanceId := d.rules.flatMap fun entry => entry.2.ids

/-- The instances an instance points to. -/
def Instance.ids : Instance → List InstanceId
  | .schema d => d.ids
  | .values _ => []

theorem Rule.mem_ids {rule : Rule} {id : InstanceId} :
    id ∈ rule.ids ↔ .nested id ∈ rule.candidates := by
  simp only [Rule.ids, List.mem_filterMap]
  constructor
  · rintro ⟨candidate, hmem, hid⟩
    cases candidate <;> simp [Candidate.id?] at hid
    exact hid ▸ hmem
  · intro hmem
    exact ⟨_, hmem, rfl⟩

theorem Definition.mem_ids_of_rule? {d : Definition} {path : String} {rule : Rule}
    (hrule : d.rule? path = some rule) {id : InstanceId} (hid : id ∈ rule.ids) : id ∈ d.ids :=
  List.mem_flatMap.2 ⟨_, Table.mem_of_get?_eq_some hrule, hid⟩

theorem Definition.mem_ids_insert {d : Definition} {path : String} {rule : Rule} {id : InstanceId}
    (h : id ∈ (d.insert path rule).ids) : id ∈ rule.ids ∨ id ∈ d.ids := by
  obtain ⟨entry, hentry, hid⟩ := List.mem_flatMap.1 h
  rcases Table.mem_of_mem_insert hentry with rfl | hold
  · exact Or.inl hid
  · exact Or.inr (List.mem_flatMap.2 ⟨entry, hold, hid⟩)

/-! ## Closed registries -/

namespace Registry

/-- Is there an instance under the id? -/
def Has (r : Registry) (id : InstanceId) : Prop := id.index < r.instances.length

/-- No name and no instance points to an instance that is not there. -/
structure Closed (r : Registry) : Prop where
  entries : ∀ entry ∈ r.entries, r.Has entry.2
  instances : ∀ i ∈ r.instances, ∀ id ∈ i.ids, r.Has id

theorem Has.exists_instance? {r : Registry} {id : InstanceId} (h : r.Has id) :
    ∃ i, r.instance? id = some i := ⟨_, List.getElem?_eq_getElem h⟩

theorem has_of_instance? {r : Registry} {id : InstanceId} {i : Instance}
    (h : r.instance? id = some i) : r.Has id := (List.getElem?_eq_some_iff.1 h).1

theorem Closed.has_of_instance? {r : Registry} (hr : r.Closed) {id : InstanceId} {i : Instance}
    (h : r.instance? id = some i) : ∀ id ∈ i.ids, r.Has id :=
  hr.instances i (List.mem_of_getElem? h)

/-! ## Extensions -/

/-- `r'` is `r` with possibly further instances. -/
structure Extends (r r' : Registry) : Prop where
  entries : r'.entries = r.entries
  instances : r.instances <+: r'.instances

variable {r r' r'' : Registry}

theorem Extends.refl (r : Registry) : r.Extends r := ⟨rfl, List.prefix_rfl⟩

theorem Extends.trans (h : r.Extends r') (h' : r'.Extends r'') : r.Extends r'' :=
  ⟨h'.entries.trans h.entries, h.instances.trans h'.instances⟩

theorem Extends.length_le (h : r.Extends r') : r.instances.length ≤ r'.instances.length :=
  h.instances.length_le

theorem Extends.has (h : r.Extends r') {id : InstanceId} (hid : r.Has id) : r'.Has id :=
  Nat.lt_of_lt_of_le hid h.length_le

theorem instance?_of_prefix (h : r.instances <+: r'.instances) {id : InstanceId} (hid : r.Has id) :
    r'.instance? id = r.instance? id := by
  obtain ⟨rest, hrest⟩ := h
  rw [Registry.instance?, ← hrest, List.getElem?_append_left hid]
  rfl

theorem Extends.instance?_eq (h : r.Extends r') {id : InstanceId} (hid : r.Has id) :
    r'.instance? id = r.instance? id := instance?_of_prefix h.instances hid

/-! ## Operations -/

theorem extends_add (r : Registry) (i : Instance) : r.Extends (r.add i).1 :=
  ⟨rfl, List.prefix_append _ _⟩

theorem has_add_snd (r : Registry) (i : Instance) : (r.add i).1.Has (r.add i).2 := by
  simp [Has, add]

theorem Closed.add (hr : r.Closed) {i : Instance} (hi : ∀ id ∈ i.ids, r.Has id) :
    (r.add i).1.Closed := by
  have hext := extends_add r i
  refine ⟨fun entry hentry => hext.has (hr.entries entry hentry), fun j hj id hid => hext.has ?_⟩
  rcases List.mem_append.1 hj with hold | hnew
  · exact hr.instances j hold id hid
  · rw [List.mem_singleton.1 hnew] at hid
    exact hi id hid

/-- What is there can be replaced; nothing else is refused, and nothing else changes. -/
theorem define_of_has {id : InstanceId} (hid : r.Has id) (i : Instance) :
    r.define id i = .ok { r with instances := r.instances.set id.index i } := if_pos hid

theorem define_of_not_has {id : InstanceId} (hid : ¬ r.Has id) (i : Instance) :
    r.define id i = .error (.unknownInstance id) := if_neg hid

theorem Closed.set (hr : r.Closed) {i : Instance} (hi : ∀ id ∈ i.ids, r.Has id) (k : Nat) :
    Closed { r with instances := r.instances.set k i } := by
  have hhas : ∀ id, r.Has id → Has { r with instances := r.instances.set k i } id := by
    intro id hid
    simpa [Has] using hid
  refine ⟨fun entry hentry => hhas _ (hr.entries entry hentry), fun j hj id hid => hhas _ ?_⟩
  rcases List.mem_or_eq_of_mem_set hj with hold | rfl
  · exact hr.instances j hold id hid
  · exact hi id hid

/-! ## New ids -/

/-- The ids that are handed out between two states of a registry, in turn. -/
def newIds (r r' : Registry) : List InstanceId :=
  (List.range' r.instances.length (r'.instances.length - r.instances.length)).map InstanceId.mk

theorem nodup_newIds (r r' : Registry) : (r.newIds r').Nodup := by
  refine List.Pairwise.map InstanceId.mk (fun index other hne heq => ?_) List.nodup_range'
  exact hne (InstanceId.mk.inj heq)

theorem mem_newIds {id : InstanceId} :
    id ∈ r.newIds r' ↔ r.instances.length ≤ id.index ∧ r'.Has id := by
  rw [newIds, List.mem_map, Has]
  constructor
  · rintro ⟨index, hindex, rfl⟩
    obtain ⟨hle, hlt⟩ := List.mem_range'_1.1 hindex
    refine ⟨hle, ?_⟩
    show index < r'.instances.length
    omega
  · rintro ⟨hle, hlt⟩
    exact ⟨id.index, List.mem_range'_1.2 ⟨hle, by omega⟩, rfl⟩

theorem newIds_of_length_eq (h : r'.instances.length = r.instances.length) : r.newIds r' = [] := by
  simp [newIds, h]

theorem newIds_add (r : Registry) (i : Instance) : r.newIds (r.add i).1 = [(r.add i).2] := by
  simp [newIds, add]

theorem newIds_append (h : r.instances.length ≤ r'.instances.length)
    (h' : r'.instances.length ≤ r''.instances.length) :
    r.newIds r'' = r.newIds r' ++ r'.newIds r'' := by
  obtain ⟨m, hm⟩ := Nat.exists_eq_add_of_le h
  obtain ⟨n, hn⟩ := Nat.exists_eq_add_of_le h'
  have hall : r.instances.length + m + n - r.instances.length = m + n := by omega
  simp only [newIds, hn, hm, Nat.add_sub_cancel_left, hall, ← List.map_append, List.range'_append_1]

/-! ## Replaced instances -/

/-- The registry with the content of an instance replaced. -/
def put (r : Registry) (id : InstanceId) (i : Instance) : Registry :=
  { r with instances := r.instances.set id.index i }

@[simp] theorem length_put (r : Registry) (id : InstanceId) (i : Instance) :
    (r.put id i).instances.length = r.instances.length := List.length_set

@[simp] theorem has_put {id id' : InstanceId} {i : Instance} : (r.put id i).Has id' ↔ r.Has id' := by
  simp [Has]

theorem instance?_put_self {id : InstanceId} (hid : r.Has id) (i : Instance) :
    (r.put id i).instance? id = some i := List.getElem?_set_self hid

theorem instance?_put_of_ne {id id' : InstanceId} (hne : id' ≠ id) (i : Instance) :
    (r.put id i).instance? id' = r.instance? id' :=
  List.getElem?_set_ne fun hindex => hne (congrArg InstanceId.mk hindex.symm)

/-- Replacing an instance that was not there before leaves alone what was. -/
theorem Extends.set (h : r.Extends r') {k : Nat} (hk : r.instances.length ≤ k) (i : Instance) :
    r.Extends { r' with instances := r'.instances.set k i } := by
  obtain ⟨rest, hrest⟩ := h.instances
  refine ⟨h.entries, rest.set (k - r.instances.length) i, ?_⟩
  rw [← hrest, List.set_append_right _ _ hk]

/-! ## Further names -/

/-- The registry with one name more. -/
def named (r : Registry) (name : String) (id : InstanceId) : Registry :=
  { r with entries := r.entries ++ [(name, id)] }

theorem bind_eq_ok {r : Registry} {name : String} {id : InstanceId} (hid : r.Has id)
    (hname : name ∉ r.entries.names) : r.bind name id = .ok (r.named name id) := by
  rw [bind, if_neg (Nat.not_le.2 hid), if_neg (mt Table.has_iff.1 hname)]
  rfl

theorem bind_of_not_has {id : InstanceId} (hid : ¬ r.Has id) (name : String) :
    r.bind name id = .error (.unknownInstance id) := if_pos (Nat.not_lt.1 hid)

theorem bind_of_mem {name : String} {id : InstanceId} (hid : r.Has id)
    (hname : name ∈ r.entries.names) : r.bind name id = .error (.duplicateTypeName name) := by
  rw [bind, if_neg (Nat.not_le.2 hid), if_pos (Table.has_iff.2 hname)]

/-- A name is only given to an instance that is there. -/
theorem of_bind_eq_ok {name : String} {id : InstanceId} (h : r.bind name id = .ok r') :
    r.Has id ∧ r' = r.named name id := by
  unfold bind at h
  split at h
  · cases h
  · next hid =>
      split at h
      · cases h
      · cases h
        exact ⟨Nat.not_le.1 hid, rfl⟩

theorem Closed.named (hr : r.Closed) (name : String) {id : InstanceId} (hid : r.Has id) :
    (r.named name id).Closed := by
  refine ⟨fun entry hentry => ?_, hr.instances⟩
  rcases List.mem_append.1 hentry with hold | hnew
  · exact hr.entries entry hold
  · rw [List.mem_singleton.1 hnew]
    exact hid

end Registry

end SchemaTyping
