import SchemaTyping.Proofs.Registry.Mirror

set_option autoImplicit false

/-! # Blocks of instances that change places

Reading a body adds a block of instances and fills a place that was taken before. When two bodies are read
one after the other, the registry holds a block for each (`Registry.stack`). In the other order the blocks
have changed places: the ids of each move by the length of the other (`exchange`), and the two registries
are in step (`Registry.inStep_stack`). -/

namespace SchemaTyping

/-! ## Moving ids -/

/-- Ids from `n` on move up by `k`. -/
def shift (n k : Nat) (id : InstanceId) : InstanceId :=
  if id.index < n then id else ⟨id.index + k⟩

/-- The `a` ids from `n` on change places with the `b` ids after them. -/
def exchange (n a b : Nat) (id : InstanceId) : InstanceId :=
  if id.index < n then id
  else if id.index < n + a then ⟨id.index + b⟩
  else if id.index < n + a + b then ⟨id.index - a⟩
  else id

theorem shift_of_lt {n k : Nat} {id : InstanceId} (h : id.index < n) : shift n k id = id := if_pos h

theorem shift_of_le {n k : Nat} {id : InstanceId} (h : n ≤ id.index) :
    shift n k id = ⟨id.index + k⟩ := if_neg (Nat.not_lt.2 h)

theorem shift_injective {n k : Nat} {id id' : InstanceId} (h : shift n k id = shift n k id') :
    id = id' := by
  obtain ⟨i⟩ := id
  obtain ⟨j⟩ := id'
  simp only [shift] at h
  split at h <;> split at h
  all_goals
    have hindex := InstanceId.mk.inj h
    exact congrArg InstanceId.mk (by omega)

section

variable {n a b : Nat} {id : InstanceId}

theorem exchange_of_lt (h : id.index < n) : exchange n a b id = id := if_pos h

theorem exchange_first (h : n ≤ id.index) (h' : id.index < n + a) :
    exchange n a b id = ⟨id.index + b⟩ := by
  rw [exchange, if_neg (Nat.not_lt.2 h), if_pos h']

theorem exchange_second (h : n + a ≤ id.index) (h' : id.index < n + a + b) :
    exchange n a b id = ⟨id.index - a⟩ := by
  rw [exchange, if_neg (by omega), if_neg (Nat.not_lt.2 h), if_pos h']

/-- The `k`-th id of the first block. -/
theorem exchange_add_first {k : Nat} (hk : k < a) : exchange n a b ⟨n + k⟩ = ⟨n + b + k⟩ := by
  rw [exchange_first (Nat.le_add_right n k) (Nat.add_lt_add_left hk n)]
  exact congrArg InstanceId.mk (Nat.add_right_comm n k b)

/-- The `k`-th id of the second block. -/
theorem exchange_add_second {k : Nat} (hk : k < b) : exchange n a b ⟨n + a + k⟩ = ⟨n + k⟩ := by
  rw [exchange_second (Nat.le_add_right _ k) (Nat.add_lt_add_left hk _)]
  exact congrArg InstanceId.mk (show n + a + k - a = n + k by omega)

theorem exchange_of_le (h : n + a + b ≤ id.index) : exchange n a b id = id := by
  rw [exchange, if_neg (by omega), if_neg (by omega), if_neg (Nat.not_lt.2 h)]

theorem exchange_injective {id id' : InstanceId} (h : exchange n a b id = exchange n a b id') :
    id = id' := by
  obtain ⟨i⟩ := id
  obtain ⟨j⟩ := id'
  simp only [exchange] at h
  repeat' split at h
  all_goals
    have hindex := InstanceId.mk.inj h
    exact congrArg InstanceId.mk (by omega)

/-- Before the second block, exchanging is shifting. -/
theorem exchange_eq_shift (h : id.index < n + a) : exchange n a b id = shift n b id := by
  by_cases hn : id.index < n
  · rw [exchange_of_lt hn, shift_of_lt hn]
  · rw [exchange_first (Nat.not_lt.1 hn) h, shift_of_le (Nat.not_lt.1 hn)]

/-- Exchanging takes the second block back to where it was without the first. -/
theorem exchange_shift (h : id.index < n + b) : exchange n a b (shift n a id) = id := by
  by_cases hn : id.index < n
  · rw [shift_of_lt hn, exchange_of_lt hn]
  · rw [shift_of_le (Nat.not_lt.1 hn), exchange_second (by dsimp only; omega) (by dsimp only; omega),
      Nat.add_sub_cancel]

end

namespace Registry

variable {r : Registry}

/-! ## Further instances -/

/-- The registry with further instances at the end. -/
def withMore (r : Registry) (new : List Instance) : Registry :=
  { r with instances := r.instances ++ new }

@[simp] theorem length_withMore (r : Registry) (new : List Instance) :
    (r.withMore new).instances.length = r.instances.length + new.length := List.length_append

theorem extends_withMore (r : Registry) (new : List Instance) : r.Extends (r.withMore new) :=
  ⟨rfl, List.prefix_append _ _⟩

theorem Extends.exists_withMore {r' : Registry} (h : r.Extends r') : ∃ new, r' = r.withMore new := by
  obtain ⟨new, hnew⟩ := h.instances
  refine ⟨new, ?_⟩
  obtain ⟨instances, entries⟩ := r'
  cases hnew
  cases h.entries
  rfl

theorem instance?_withMore (r : Registry) (new : List Instance) (k : Nat) :
    (r.withMore new).instance? ⟨r.instances.length + k⟩ = new[k]? := by
  rw [instance?, withMore, List.getElem?_append_right (Nat.le_add_right _ _), Nat.add_sub_cancel_left]

/-! ## Two blocks -/

/-- The registry with two blocks of instances, for each of which a place was filled. -/
def stack (r : Registry) (A : List Instance) (p : InstanceId) (i : Instance) (B : List Instance)
    (q : InstanceId) (j : Instance) : Registry :=
  (((r.withMore A).put p i).withMore B).put q j

section

variable {A B : List Instance} {p q : InstanceId} {i j : Instance}

theorem length_stack : (r.stack A p i B q j).instances.length
    = r.instances.length + A.length + B.length := by
  simp [stack]

theorem instance?_stack_second (hq : r.Has q) : (r.stack A p i B q j).instance? q = some j := by
  refine instance?_put_self ?_ j
  exact (extends_withMore _ B).has (has_put.2 ((r.extends_withMore A).has hq))

theorem instance?_stack_first (hp : r.Has p) (hne : p ≠ q) :
    (r.stack A p i B q j).instance? p = some i := by
  have hhas := (r.extends_withMore A).has hp
  rw [stack, instance?_put_of_ne hne, (extends_withMore _ B).instance?_eq (has_put.2 hhas),
    instance?_put_self hhas]

theorem instance?_stack_of_has {id : InstanceId} (hid : r.Has id) (hp : id ≠ p) (hq : id ≠ q) :
    (r.stack A p i B q j).instance? id = r.instance? id := by
  have hhas := (r.extends_withMore A).has hid
  rw [stack, instance?_put_of_ne hq, (extends_withMore _ B).instance?_eq (has_put.2 hhas),
    instance?_put_of_ne hp, (r.extends_withMore A).instance?_eq hid]

theorem instance?_stack_firstBlock (hp : r.Has p) (hq : r.Has q) {k : Nat} (hk : k < A.length) :
    (r.stack A p i B q j).instance? ⟨r.instances.length + k⟩ = A[k]? := by
  have hne {x : InstanceId} (hx : r.Has x) : (⟨r.instances.length + k⟩ : InstanceId) ≠ x := by
    rintro rfl
    exact absurd hx (Nat.not_lt.2 (Nat.le_add_right _ _))
  have hhas : (r.withMore A).Has ⟨r.instances.length + k⟩ := by
    simpa [Has] using hk
  rw [stack, instance?_put_of_ne (hne hq), (extends_withMore _ B).instance?_eq (has_put.2 hhas),
    instance?_put_of_ne (hne hp), instance?_withMore]

theorem instance?_stack_secondBlock (hq : r.Has q) (k : Nat) :
    (r.stack A p i B q j).instance? ⟨r.instances.length + A.length + k⟩ = B[k]? := by
  have hne : (⟨r.instances.length + A.length + k⟩ : InstanceId) ≠ q := by
    rintro rfl
    have hlt : r.instances.length + A.length + k < r.instances.length := hq
    omega
  have hlength : ((r.withMore A).put p i).instances.length = r.instances.length + A.length := by
    simp
  rw [stack, instance?_put_of_ne hne, ← hlength, instance?_withMore]

end

/-- **Two blocks that have changed places.** If the instances of each block, and the one in its place,
    point only to the rest of the registry and to that block, both orders give registries in step. -/
theorem inStep_stack (hr : r.Closed) {A B : List Instance} {p q : InstanceId} {i j : Instance}
    (hp : r.Has p) (hq : r.Has q) (hne : p ≠ q)
    (hA : ∀ x ∈ i :: A, ∀ id ∈ x.ids, id.index < r.instances.length + A.length)
    (hB : ∀ x ∈ j :: B, ∀ id ∈ x.ids, id.index < r.instances.length + B.length) :
    let first := shift r.instances.length A.length
    let second := shift r.instances.length B.length
    (r.stack A p i (B.map (Instance.rename first)) q (j.rename first)).InStep
      (exchange r.instances.length A.length B.length)
      (r.stack B q j (A.map (Instance.rename second)) p (i.rename second)) := by
  intro first second
  have hold {x : Instance} (hx : ∀ id ∈ x.ids, r.Has id) :
      x.rename (exchange r.instances.length A.length B.length) = x :=
    Instance.rename_eq_self fun id hid => exchange_of_lt (hx id hid)
  have hfirst {x : Instance} (hx : x ∈ i :: A) :
      x.rename (exchange r.instances.length A.length B.length) = x.rename second :=
    Instance.rename_congr fun id hid => exchange_eq_shift (hA x hx id hid)
  have hsecond {x : Instance} (hx : x ∈ j :: B) :
      (x.rename first).rename (exchange r.instances.length A.length B.length) = x := by
    rw [Instance.rename_rename]
    exact Instance.rename_eq_self fun id hid => exchange_shift (hB x hx id hid)
  refine ⟨?_, fun id hid => ?_, fun _ _ => exchange_injective, fun k => ?_⟩
  · exact (Table.mapValues_eq_self fun entry hentry => exchange_of_lt (hr.entries entry hentry)).symm
  · by_cases hlt : id.index < r.instances.length
    · have hhas : r.Has id := hlt
      rw [exchange_of_lt hlt]
      by_cases hidq : id = q
      · subst hidq
        rw [instance?_stack_first hhas hne.symm, instance?_stack_second hhas, Option.map_some,
          hsecond List.mem_cons_self]
      · by_cases hidp : id = p
        · subst hidp
          rw [instance?_stack_second hhas, instance?_stack_first hhas hne, Option.map_some,
            hfirst List.mem_cons_self]
        · rw [instance?_stack_of_has hhas hidq hidp, instance?_stack_of_has hhas hidp hidq]
          obtain ⟨x, hx⟩ := hhas.exists_instance?
          rw [hx, Option.map_some, hold (hr.has_of_instance? hx)]
    · obtain ⟨k, hk⟩ := Nat.exists_eq_add_of_le (Nat.not_lt.1 hlt)
      obtain rfl : id = ⟨r.instances.length + k⟩ := congrArg InstanceId.mk hk
      have hbound : k < A.length + B.length := by
        have hid' : r.instances.length + k < _ := hid
        rw [length_stack, List.length_map] at hid'
        omega
      by_cases hblock : k < A.length
      · rw [exchange_add_first hblock, instance?_stack_secondBlock hp,
          instance?_stack_firstBlock hp hq hblock, List.getElem?_map, List.getElem?_eq_getElem hblock,
          Option.map_some, Option.map_some, hfirst (List.mem_cons_of_mem _ (List.getElem_mem hblock))]
      · obtain ⟨m, rfl⟩ := Nat.exists_eq_add_of_le (Nat.not_lt.1 hblock)
        have hm : m < B.length := by omega
        rw [← Nat.add_assoc, exchange_add_second hm, instance?_stack_secondBlock hq,
          instance?_stack_firstBlock hq hp hm, List.getElem?_map, List.getElem?_eq_getElem hm,
          Option.map_some, Option.map_some, hsecond (List.mem_cons_of_mem _ (List.getElem_mem hm))]
  · rw [length_stack, length_stack, List.length_map, List.length_map, exchange_of_le (by dsimp only; omega)]
    exact congrArg InstanceId.mk (by omega)

end Registry

end SchemaTyping
