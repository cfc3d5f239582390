import SchemaTyping.Proofs.Document.Filling

set_option autoImplicit false

/-! # The ids of two documents

Two documents can be loaded one after the other, or as one that holds the entries of both
(`Document.append`). The same ids are taken either way, but for other bodies. One after the other they are
those of the instances and of the bodies of the first, of its inline instances, and then those of the
instances and of the bodies of the second. As one, the ids of all named bodies come before all inline
instances, and those of all instances before those of all schemas. `Loader.Joins` states how the two
correspond, and `Loader.exists_joins` gives the renaming: two exchanges of neighbouring blocks
(`interleave`), which only make room as long as the second document has not been read (`spread`). -/

namespace SchemaTyping

/-- Both documents as one: the entries of the first, then those of the second. -/
def Document.append (d d' : Document) : Document where
  instances := d.instances ++ d'.instances
  schemas := d.schemas ++ d'.schemas

/-! ## Blocks of ids -/

/-- Room for `a'` ids from `n` on, and for `b'` more after the `b` ids that follow. -/
def spread (n b a' b' : Nat) : InstanceId → InstanceId := shift (n + a' + b) b' ∘ shift n a'

/-- From `n` on there are `b` ids, `x` ids, `a'` ids and `b'` ids. They come to stand as `a'`, `b`, `b'` and
    then `x` ids. -/
def interleave (n b x a' b' : Nat) : InstanceId → InstanceId :=
  exchange (n + a' + b) x b' ∘ exchange n (b + x) a'

section

variable {n b x a' b' : Nat} {id : InstanceId}

theorem spread_injective {id id' : InstanceId} (h : spread n b a' b' id = spread n b a' b' id') :
    id = id' := shift_injective (shift_injective h)

theorem interleave_injective {id id' : InstanceId}
    (h : interleave n b x a' b' id = interleave n b x a' b' id') : id = id' :=
  exchange_injective (exchange_injective h)

/-- Before the last two blocks the ids only make room. -/
theorem interleave_eq_spread (h : id.index < n + b + x) :
    interleave n b x a' b' id = spread n b a' b' id := by
  have hfirst : exchange n (b + x) a' id = shift n a' id :=
    exchange_eq_shift (by rwa [← Nat.add_assoc])
  have hsecond : (shift n a' id).index < n + a' + b + x := by
    by_cases hlt : id.index < n
    · rw [shift_of_lt hlt]
      omega
    · rw [shift_of_le (Nat.not_lt.1 hlt)]
      show id.index + a' < _
      omega
  rw [interleave, Function.comp_apply, hfirst, exchange_eq_shift hsecond]
  rfl

theorem spread_of_lt (h : id.index < n) : spread n b a' b' id = id := by
  have hsecond : id.index < n + a' + b := by omega
  rw [spread, Function.comp_apply, shift_of_lt h, shift_of_lt hsecond]

theorem spread_add {j : Nat} (h : j < b) : spread n b a' b' ⟨n + j⟩ = ⟨n + a' + j⟩ := by
  have hfirst : shift n a' ⟨n + j⟩ = ⟨n + a' + j⟩ :=
    (shift_of_le (Nat.le_add_right n j)).trans (congrArg InstanceId.mk (Nat.add_right_comm n j a'))
  rw [spread, Function.comp_apply, hfirst]
  exact shift_of_lt (Nat.add_lt_add_left h _)

theorem spread_add_add (k : Nat) : spread n b a' b' ⟨n + b + k⟩ = ⟨n + a' + b + b' + k⟩ := by
  have hfirst : shift n a' ⟨n + b + k⟩ = ⟨n + a' + b + k⟩ :=
    (shift_of_le (by simp only; omega)).trans (congrArg InstanceId.mk (by simp only; omega))
  rw [spread, Function.comp_apply, hfirst]
  exact (shift_of_le (Nat.le_add_right _ k)).trans (congrArg InstanceId.mk (Nat.add_right_comm _ k b'))

theorem interleave_of_lt (h : id.index < n) : interleave n b x a' b' id = id := by
  rw [interleave_eq_spread (by omega), spread_of_lt h]

theorem interleave_add {j : Nat} (h : j < b) : interleave n b x a' b' ⟨n + j⟩ = ⟨n + a' + j⟩ := by
  rw [interleave_eq_spread (by simp only; omega), spread_add h]

theorem interleave_instances {i : Nat} (h : i < a') :
    interleave n b x a' b' ⟨n + b + x + i⟩ = ⟨n + i⟩ := by
  rw [interleave, Function.comp_apply, Nat.add_assoc n b x, exchange_add_second h]
  exact exchange_of_lt (by simp only; omega)

theorem interleave_bodies {j : Nat} (h : j < b') :
    interleave n b x a' b' ⟨n + b + x + a' + j⟩ = ⟨n + a' + b + j⟩ := by
  have hfirst : exchange n (b + x) a' ⟨n + b + x + a' + j⟩ = ⟨n + a' + b + x + j⟩ :=
    (exchange_of_le (by simp only; omega)).trans (congrArg InstanceId.mk (by omega))
  rw [interleave, Function.comp_apply, hfirst, exchange_add_second h]

theorem interleave_of_le (h : n + b + x + a' + b' ≤ id.index) : interleave n b x a' b' id = id := by
  have hfirst : exchange n (b + x) a' id = id := exchange_of_le (by omega)
  rw [interleave, Function.comp_apply, hfirst]
  exact exchange_of_le (by omega)

end

namespace Loader

variable {l m : Loader} {d d' : Document} {σ : InstanceId → InstanceId}

/-! ## Ids in order -/

/-- Ids in order that are moved together. -/
theorem map_zipIdx_moved {α : Type} {xs : List α} {k k' : Nat}
    (h : ∀ i < xs.length, σ ⟨k + i⟩ = ⟨k' + i⟩) :
    ((xs.zipIdx k).map fun (x, i) => (x, σ ⟨i⟩)) =
      (xs.zipIdx k').map fun (x, i) => (x, (⟨i⟩ : InstanceId)) := by
  induction xs generalizing k k' with
  | nil => rfl
  | cons x rest ih =>
      have hfirst : σ ⟨k⟩ = ⟨k'⟩ := h 0 (Nat.succ_pos _)
      have hrest := @ih (k + 1) (k' + 1) fun i hi => by
        rw [Nat.add_assoc, Nat.add_assoc, Nat.add_comm 1]
        exact h (i + 1) (Nat.succ_lt_succ hi)
      simp only [List.zipIdx_cons, List.map_cons, hfirst, hrest]

theorem mapValues_numbered {k k' : Nat} {t : Table Json}
    (h : ∀ i < t.length, σ ⟨k + i⟩ = ⟨k' + i⟩) : (numbered k t).mapValues σ = numbered k' t := by
  have hnames := congrArg (List.map fun entry => (entry.1.1, entry.2)) (map_zipIdx_moved h)
  rw [List.map_map, List.map_map] at hnames
  rw [numbered, Table.mapValues, List.map_map]
  exact hnames

theorem map_rename_waiting {part : String} {k k' : Nat} {t : Table Json}
    (h : ∀ i < t.length, σ ⟨k + i⟩ = ⟨k' + i⟩) :
    (waiting part k t).map (Pending.rename σ) = waiting part k' t := by
  have hbodies := congrArg (List.map fun entry =>
    (⟨Body.atKey part entry.1.1, entry.2, entry.1.2⟩ : Pending)) (map_zipIdx_moved h)
  rw [List.map_map, List.map_map] at hbodies
  rw [waiting, List.map_map]
  exact hbodies

/-! ## Both documents -/

/-- The ids that two documents take, the second one when `m` is left by the first, correspond by `ψ` to those
    that both take as one. While the first is loaded, `φ` makes room for the second. -/
structure Joins (l m : Loader) (d d' : Document) (φ ψ : InstanceId → InstanceId) : Prop where
  injective : ∀ id id', ψ id = ψ id' → id = id'
  injective_room : ∀ id id', φ id = φ id' → id = id'
  agree : ∀ id, m.registry.Has id → ψ id = φ id
  old : ∀ id, l.registry.Has id → ψ id = id
  /-- The instances of the first document stay where they are. -/
  first : ∀ i < d.instances.length,
    ψ ⟨l.registry.instances.length + i⟩ = ⟨l.registry.instances.length + i⟩
  /-- Its bodies make room for the instances of the second. -/
  firstBodies : ∀ j < (ownBodies d.schemas).length,
    ψ ⟨l.registry.instances.length + d.instances.length + j⟩
      = ⟨l.registry.instances.length + (d.instances.length + d'.instances.length) + j⟩
  second : ∀ i < d'.instances.length,
    ψ ⟨m.registry.instances.length + i⟩ = ⟨l.registry.instances.length + d.instances.length + i⟩
  secondBodies : ∀ j < (ownBodies d'.schemas).length,
    ψ ⟨m.registry.instances.length + d'.instances.length + j⟩
      = ⟨l.registry.instances.length + (d.instances.length + d'.instances.length)
          + (ownBodies d.schemas).length + j⟩
  /-- What is added for the first document comes after all that both take. -/
  room : ∀ j, φ ⟨(l.readyFor d).registry.instances.length + j⟩
    = ⟨(l.readyFor (d.append d')).registry.instances.length + j⟩
  next : ∀ j, ψ ⟨(m.readyFor d').registry.instances.length + j⟩
    = ⟨(m.readyFor d').registry.instances.length + j⟩

theorem length_readyFor_append (l : Loader) (d d' : Document) :
    (l.readyFor (d.append d')).registry.instances.length
      = (l.readyFor d).registry.instances.length
        + (d'.instances.length + (ownBodies d'.schemas).length) := by
  simp only [length_readyFor, Document.append, ownBodies_append, List.length_append]
  omega

theorem exists_joins (d' : Document)
    (hlength : (l.readyFor d).registry.instances.length ≤ m.registry.instances.length) :
    ∃ φ ψ, l.Joins m d d' φ ψ := by
  -- between the two documents there are the inline instances of the first
  obtain ⟨x, hx⟩ := Nat.exists_eq_add_of_le hlength
  rw [length_readyFor] at hx
  refine ⟨spread (l.registry.instances.length + d.instances.length) (ownBodies d.schemas).length
      d'.instances.length (ownBodies d'.schemas).length,
    interleave (l.registry.instances.length + d.instances.length) (ownBodies d.schemas).length x
      d'.instances.length (ownBodies d'.schemas).length,
    fun _ _ => interleave_injective, fun _ _ => spread_injective,
    fun id hid => interleave_eq_spread (hx ▸ hid),
    fun id hid => interleave_of_lt (Nat.lt_add_right _ hid),
    fun i hi => interleave_of_lt (Nat.add_lt_add_left hi _), fun j hj => ?_, fun i hi => ?_,
    fun j hj => ?_, fun j => ?_, fun j => ?_⟩
  · rw [interleave_add hj, Nat.add_assoc l.registry.instances.length]
  · rw [hx]
    exact interleave_instances hi
  · rw [hx, interleave_bodies hj, Nat.add_assoc l.registry.instances.length]
  · rw [length_readyFor_append, length_readyFor, spread_add_add]
    exact congrArg InstanceId.mk (by omega)
  · rw [length_readyFor, hx]
    exact interleave_of_le (Nat.le_add_right _ j)

section

variable {φ ψ : InstanceId → InstanceId} (h : l.Joins m d d' φ ψ)

include h

theorem Joins.instances : numbered l.registry.instances.length (d.append d').instances =
    (numbered l.registry.instances.length d.instances ++
      numbered m.registry.instances.length d'.instances : Table InstanceId).mapValues ψ := by
  rw [Document.append, numbered_append, Table.mapValues_append, mapValues_numbered h.first,
    mapValues_numbered h.second]

theorem Joins.bodies :
    l.bodyIds (d.append d') = (l.bodyIds d ++ m.bodyIds d' : Table InstanceId).mapValues ψ := by
  rw [bodyIds, bodyIds, bodyIds, Document.append, ownBodies_append, List.length_append, numbered_append,
    Table.mapValues_append, mapValues_numbered h.firstBodies, mapValues_numbered h.secondBodies]

/-- As one, both documents have the same bodies in other places and in another order. -/
theorem Joins.pending : ((l.pendingOf d ++ m.pendingOf d').map (Pending.rename ψ)).Perm
    (l.pendingOf (d.append d')) := by
  rw [pendingOf, pendingOf, pendingOf, Document.append, ownBodies_append, List.length_append,
    waiting_append, waiting_append, List.map_append, List.map_append, List.map_append,
    map_rename_waiting h.first, map_rename_waiting h.firstBodies, map_rename_waiting h.second,
    map_rename_waiting h.secondBodies]
  -- the instances of the second document go before the bodies of the first
  rw [List.append_assoc, List.append_assoc]
  refine .append_left _ ?_
  rw [← List.append_assoc, ← List.append_assoc]
  exact .append_right _ List.perm_append_comm

end

end Loader

end SchemaTyping
