import SchemaTyping.Proofs.Document.Lockstep
import SchemaTyping.Proofs.Document.Phases
import SchemaTyping.Proofs.Registry.Exchange

set_option autoImplicit false

/-! # The order in which bodies are read

Bodies see each other only through the ids that were taken for them, so they can be read in any order: the
registries that are left are in step (`Loader.fill_perm`). The heart of the matter is two neighbours that
change places (`Loader.fill_swap`). What a body adds does not depend on what was read before it, but for
the ids (`Body.read_shift`), so the two blocks of inline instances only change places.

Bodies that can be read can also be read where more names are known and the ids are others, from any
registry that is related in a way that adding and filling keep (`Loader.fill_wider`), and one part of them
after the other (`Loader.fill_append`). -/

namespace SchemaTyping

variable {σ : InstanceId → InstanceId}

/-! ## One body -/

theorem Scope.rename_eq_self {scope : Scope}
    (h : ∀ name id, scope.target? name = some id → σ id = id) : scope.rename σ = scope := by
  have htarget : (fun name => (scope.target? name).map σ) = scope.target? := by
    funext name
    cases hid : scope.target? name with
    | none => rfl
    | some id => exact congrArg some (h name id hid)
  rw [Scope.rename, htarget]

/-- Putting corresponding instances in corresponding places leaves the registries related. -/
def PutsAlike (σ : InstanceId → InstanceId) (R : Registry → Registry → Prop) : Prop :=
  ∀ (r s : Registry) (id : InstanceId) (i : Instance), R r s → r.Has id →
    s.Has (σ id) ∧ R (r.put id i) (s.put (σ id) (i.rename σ))

namespace Registry

theorem InStep.putsAlike : PutsAlike σ (InStep σ) :=
  fun _ _ _ i h hhas => ⟨h.has hhas, h.put hhas i⟩

/-- Taking ids moves those that are handed out from then on. -/
theorem inStep_reserveMany {r : Registry} (hr : r.Closed) (k : Nat) :
    r.InStep (shift r.instances.length k) (r.reserveMany k) where
  entries := (Table.mapValues_eq_self fun entry hentry => shift_of_lt (hr.entries entry hentry)).symm
  instance? := fun id hid => by
    obtain ⟨i, hi⟩ := hid.exists_instance?
    have hsame : i.rename (shift r.instances.length k) = i := Instance.rename_eq_self fun id hid =>
      shift_of_lt (hr.has_of_instance? hi id hid)
    rw [shift_of_lt hid, (r.extends_reserveMany k).instance?_eq hid, hi, Option.map_some, hsame]
  injective := fun _ _ => shift_injective
  next := fun j => by
    rw [shift_of_le (Nat.le_add_right _ _), length_reserveMany]
    exact congrArg InstanceId.mk (Nat.add_right_comm _ _ _)

/-- The first of two registries in step takes ids: they correspond to any places that the second has taken
    and not filled. -/
theorem InStep.claim {τ : InstanceId → InstanceId} {r s : Registry} {k : Nat} (h : r.InStep σ s)
    (hr : r.Closed) (hold : ∀ id, r.Has id → τ id = σ id)
    (hinjective : ∀ id id', τ id = τ id' → id = id')
    (hplaces : ∀ id, r.instances.length ≤ id.index → (r.reserveMany k).Has id →
      s.instance? (τ id) = some (.schema {}))
    (hnext : ∀ j, τ ⟨r.instances.length + k + j⟩ = ⟨s.instances.length + j⟩) :
    (r.reserveMany k).InStep τ s where
  entries := h.entries.trans
    (Table.mapValues_congr fun entry hentry => (hold _ (hr.entries entry hentry)).symm)
  instance? := fun id hid => by
    by_cases hlt : id.index < r.instances.length
    · have hhas : r.Has id := hlt
      obtain ⟨i, hi⟩ := hhas.exists_instance?
      have hsame : i.rename τ = i.rename σ := Instance.rename_congr fun id hid =>
        hold id (hr.has_of_instance? hi id hid)
      rw [hold id hhas, h.instance? id hhas, (r.extends_reserveMany k).instance?_eq hhas, hi,
        Option.map_some, Option.map_some, hsame]
    · have hle : r.instances.length ≤ id.index := Nat.not_lt.1 hlt
      rw [hplaces id hle hid, r.instance?_reserveMany hle hid]
      rfl
  injective := hinjective
  next := fun j => by
    rw [length_reserveMany]
    exact hnext j

/-- The registries are in step but for the names of the first, which are these. -/
def InStepUnder (entries : Table InstanceId) (σ : InstanceId → InstanceId) (r s : Registry) : Prop :=
  InStep σ { r with entries := entries } s

theorem InStepUnder.addsAlike (entries : Table InstanceId) : AddsAlike σ (InStepUnder entries σ) :=
  fun _ _ i h => ⟨InStep.add_snd h i, InStep.add h i⟩

theorem InStepUnder.putsAlike (entries : Table InstanceId) : PutsAlike σ (InStepUnder entries σ) :=
  fun _ _ _ i h hhas => ⟨InStep.has h hhas, InStep.put h hhas i⟩

/-- Both registries have grown by the same instances, up to a renaming. -/
def Beside (σ : InstanceId → InstanceId) (r₀ s₀ r s : Registry) : Prop :=
  ∃ new, r = r₀.withMore new ∧ s = s₀.withMore (new.map (Instance.rename σ))

theorem addsAlike_beside {r₀ s₀ : Registry} {k : Nat}
    (hlength : s₀.instances.length = r₀.instances.length + k) :
    AddsAlike (shift r₀.instances.length k) (Beside (shift r₀.instances.length k) r₀ s₀) := by
  rintro _ _ i ⟨new, rfl, rfl⟩
  refine ⟨?_, new ++ [i], by simp [withMore, add], by simp [withMore, add]⟩
  simp only [add, length_withMore, List.length_map]
  rw [shift_of_le (Nat.le_add_right _ _), hlength]
  exact congrArg InstanceId.mk (Nat.add_right_comm _ _ _)

end Registry

namespace Body

variable {scope : Scope} {n k : Nat} {r s : Registry}

/-- A body that is read with `k` more instances there gives and adds the same, with its own ids moved up by
    `k`. -/
theorem read_shift (hscope : ScopeBelow scope n) (hn : n ≤ r.instances.length)
    (hlength : s.instances.length = r.instances.length + k) (place : String) (j : Json) :
    (∃ i new, exec (read scope place j) r = (.ok i, r.withMore new) ∧
      exec (read scope place j) s = (.ok (i.rename (shift r.instances.length k)),
        s.withMore (new.map (Instance.rename (shift r.instances.length k))))) ∨
      ∃ e r' s', exec (read scope place j) r = (.error e, r') ∧
        exec (read scope place j) s = (.error e, s') := by
  have hsame : scope.rename (shift r.instances.length k) = scope :=
    Scope.rename_eq_self fun name id hid => shift_of_lt (Nat.lt_of_lt_of_le (hscope name id hid) hn)
  have hstart : Registry.Beside (shift r.instances.length k) r s r s :=
    ⟨[], by simp [Registry.withMore], by simp [Registry.withMore]⟩
  have halike := read_alike (Registry.addsAlike_beside hlength) scope place j r s hstart
  rw [hsame] at halike
  rcases halike with ⟨i, _, _, hr, hs, new, rfl, rfl⟩ | ⟨e, r', s', hr, hs⟩
  · exact Or.inl ⟨i, new, hr, hs⟩
  · exact Or.inr ⟨e, r', s', hr, hs⟩

/-- What a body gives and adds points only to what was there or is added with it. -/
theorem read_below (hscope : ScopeBelow scope n) (hn : n ≤ r.instances.length) (hr : r.Closed)
    {place : String} {j : Json} {i : Instance} {new : List Instance}
    (hrun : exec (read scope place j) r = (.ok i, r.withMore new)) :
    (r.withMore new).Closed ∧
      ∀ x ∈ i :: new, ∀ id ∈ x.ids, id.index < r.instances.length + new.length := by
  obtain ⟨-, hclosed, hids⟩ := read_keeps place j hscope r hr hn
  rw [hrun] at hclosed hids
  refine ⟨hclosed, fun x hx id hid => ?_⟩
  rcases List.mem_cons.1 hx with rfl | hx
  · simpa using hids _ (Nat.le_refl _) id hid
  · have hmem : x ∈ (r.withMore new).instances := List.mem_append_right _ hx
    simpa [Registry.Has] using hclosed.instances x hmem id hid

end Body

namespace Loader

variable {scope : Scope} {n : Nat} {pending pending' rest : List Pending} {p q : Pending}
variable {r s : Registry}

/-! ## Registries in step -/

/-- **Bodies that can be read in a scope can be read in a wider one,** from a related registry. -/
theorem fill_wider {R : Registry → Registry → Prop} {wide : Scope} {r' : Registry}
    (hadd : AddsAlike σ R) (hput : PutsAlike σ R) (hw : scope.Widens σ wide) (h : R r s)
    (hr : fill scope pending r = .ok r') :
    ∃ s', fill wide (pending.map (Pending.rename σ)) s = .ok s' ∧ R r' s' := by
  induction pending generalizing r s with
  | nil =>
      cases hr
      exact ⟨s, rfl, h⟩
  | cons p rest ih =>
      obtain ⟨i, read, hread, hhas, hrest⟩ := fill_cons_eq_ok.1 hr
      obtain ⟨s₁, hs, h₁⟩ := Body.read_wider hadd hw h hread
      obtain ⟨hhas', h₂⟩ := hput _ _ p.id i h₁ hhas
      obtain ⟨s', hfill, h'⟩ := ih h₂ hrest
      exact ⟨s', fill_cons_eq_ok.2 ⟨_, _, hs, hhas', hfill⟩, h'⟩

theorem fill_inStep {r' : Registry} (h : r.InStep σ s) (hr : fill scope pending r = .ok r') :
    ∃ s', fill (scope.rename σ) (pending.map (Pending.rename σ)) s = .ok s' ∧ r'.InStep σ s' :=
  fill_wider Registry.InStep.addsAlike Registry.InStep.putsAlike (scope.widens_rename σ) h hr

/-- Bodies are read one after the other. -/
theorem fill_append : fill scope (pending ++ rest) r = .ok s ↔
    ∃ t, fill scope pending r = .ok t ∧ fill scope rest t = .ok s := by
  induction pending generalizing r with
  | nil => simp [fill]
  | cons p others ih =>
      simp only [List.cons_append, fill_cons_eq_ok, ih]
      constructor
      · rintro ⟨i, read, hread, hhas, t, hothers, hrest⟩
        exact ⟨t, ⟨i, read, hread, hhas, hothers⟩, hrest⟩
      · rintro ⟨t, ⟨i, read, hread, hhas, hothers⟩, hrest⟩
        exact ⟨i, read, hread, hhas, t, hothers, hrest⟩

theorem map_rename_congr {τ : InstanceId → InstanceId} (h : ∀ p ∈ pending, σ p.id = τ p.id) :
    pending.map (Pending.rename σ) = pending.map (Pending.rename τ) :=
  List.map_congr_left fun p hp => by rw [Pending.rename, Pending.rename, h p hp]

theorem map_rename_eq_self (h : ∀ p ∈ pending, σ p.id = p.id) :
    pending.map (Pending.rename σ) = pending := (map_rename_congr (τ := id) h).trans (List.map_id pending)

/-- `s` is `r` with its instances from `n` on in another order. -/
structure Shuffles (n : Nat) (σ : InstanceId → InstanceId) (r s : Registry) : Prop where
  inStep : r.InStep σ s
  length : s.instances.length = r.instances.length
  below : ∀ id, id.index < n → σ id = id

theorem Shuffles.refl (n : Nat) (r : Registry) : Shuffles n id r r where
  inStep :=
    { entries := (Table.mapValues_eq_self fun _ _ => rfl).symm
      instance? := fun x _ => by
        show r.instance? x = (r.instance? x).map (Instance.rename id)
        rw [show Instance.rename id = id from funext Instance.rename_id, Option.map_id]
        rfl
      injective := fun _ _ h => h
      next := fun _ => rfl }
  length := rfl
  below := fun _ _ => rfl

theorem Shuffles.trans {τ : InstanceId → InstanceId} {u : Registry} (h : Shuffles n σ r s)
    (h' : Shuffles n τ s u) : Shuffles n (τ ∘ σ) r u where
  inStep := h.inStep.trans h'.inStep
  length := h'.length.trans h.length
  below := fun id hid => by rw [Function.comp_apply, h.below id hid, h'.below id hid]

/-! ## Two neighbours -/

/-- What can be said of bodies that are to be read in a registry of which `n` instances are taken. -/
structure Readable (scope : Scope) (n : Nat) (pending : List Pending) (r : Registry) : Prop where
  scope : Body.ScopeBelow scope n
  length : n ≤ r.instances.length
  closed : r.Closed
  places : ∀ p ∈ pending, p.id.index < n

/-- Two bodies that are read one after the other can change places. -/
theorem fill_swap (hr : Readable scope n (p :: q :: rest) r) (hne : p.id ≠ q.id)
    (h : fill scope (p :: q :: rest) r = .ok s) :
    ∃ σ s', fill scope (q :: p :: rest) r = .ok s' ∧ Shuffles n σ s s' := by
  have hp : r.Has p.id := Nat.lt_of_lt_of_le (hr.places p (by simp)) hr.length
  have hq : r.Has q.id := Nat.lt_of_lt_of_le (hr.places q (by simp)) hr.length
  obtain ⟨i, _, hfirst, -, h⟩ := fill_cons_eq_ok.1 h
  obtain ⟨_, _, hsecond, -, h⟩ := fill_cons_eq_ok.1 h
  obtain ⟨A, rfl⟩ := ((Body.read_gives _ _ _).ok (Nat.zero_le _) hfirst).1.exists_withMore
  -- the second body on its own, and with what the first has added
  have hwith : ((r.withMore A).put p.id i).instances.length = r.instances.length + A.length := by simp
  rcases Body.read_shift hr.scope hr.length hwith q.place q.body with
    ⟨j, B, halone, hafter⟩ | ⟨e, _, _, -, hafter⟩
  swap
  · cases hsecond.symm.trans hafter
  cases hsecond.symm.trans hafter
  -- the first body on its own, and with what the second has added
  have hwith' : ((r.withMore B).put q.id j).instances.length = r.instances.length + B.length := by simp
  rcases Body.read_shift hr.scope hr.length hwith' p.place p.body with
    ⟨i', A', halone', hafter'⟩ | ⟨e, _, _, halone', -⟩
  swap
  · cases hfirst.symm.trans halone'
  obtain ⟨rfl, hA⟩ : i = i' ∧ r.withMore A = r.withMore A' := by
    simpa using hfirst.symm.trans halone'
  obtain rfl : A = A' := List.append_cancel_left (congrArg Registry.instances hA)
  obtain ⟨-, hbelow⟩ := Body.read_below hr.scope hr.length hr.closed hfirst
  obtain ⟨-, hbelow'⟩ := Body.read_below hr.scope hr.length hr.closed halone
  have hstep := Registry.inStep_stack hr.closed hp hq hne hbelow hbelow'
  obtain ⟨s', hfill, hstep'⟩ := fill_inStep hstep h
  have hfixed {id : InstanceId} (hid : id.index < n) :
      exchange r.instances.length A.length B.length id = id :=
    exchange_of_lt (Nat.lt_of_lt_of_le hid hr.length)
  rw [Scope.rename_eq_self fun name id hid => hfixed (hr.scope name id hid),
    map_rename_eq_self fun p hp => hfixed (hr.places p (by simp [hp]))] at hfill
  refine ⟨_, s', ?_, hstep', ?_, fun id hid => hfixed hid⟩
  · refine fill_cons_eq_ok.2 ⟨j, _, halone, (r.extends_withMore B).has hq, ?_⟩
    refine fill_cons_eq_ok.2 ⟨_, _, hafter', ?_, hfill⟩
    exact (Registry.extends_withMore _ _).has (Registry.has_put.2 ((r.extends_withMore B).has hp))
  · refine hstep.length_eq hstep' ?_ (fill_keeps h).2.1
    rw [Registry.length_stack, Registry.length_stack, List.length_map, List.length_map]
    omega

/-! ## Any order -/

theorem Readable.perm (hr : Readable scope n pending r) (h : pending.Perm pending') :
    Readable scope n pending' r :=
  { hr with places := fun p hp => hr.places p (h.mem_iff.2 hp) }

/-- **Bodies can be read in any order:** the registries that are left differ in the order of the inline
    instances only. -/
theorem fill_perm (hperm : pending.Perm pending') (hr : Readable scope n pending r)
    (hdistinct : (pending.map Pending.id).Nodup) (h : fill scope pending r = .ok s) :
    ∃ σ s', fill scope pending' r = .ok s' ∧ Shuffles n σ s s' := by
  induction hperm generalizing r s with
  | nil => exact ⟨id, s, h, .refl n s⟩
  | @cons p rest rest' _ ih =>
      obtain ⟨i, read, hread, hhas, hrest⟩ := fill_cons_eq_ok.1 h
      obtain ⟨new, rfl⟩ := ((Body.read_gives _ _ _).ok (Nat.zero_le _) hread).1.exists_withMore
      obtain ⟨hclosed, hbelow⟩ := Body.read_below hr.scope hr.length hr.closed hread
      have hready : Readable scope n rest ((r.withMore new).put p.id i) := by
        refine ⟨hr.scope, ?_, hclosed.set ?_ _, fun q hq => hr.places q (List.mem_cons_of_mem _ hq)⟩
        · have := hr.length
          simp only [Registry.length_put, Registry.length_withMore]
          omega
        · intro id hid
          simpa [Registry.Has] using hbelow i List.mem_cons_self id hid
      obtain ⟨σ, s', hfill, hshuffles⟩ := ih hready (List.nodup_cons.1 hdistinct).2 hrest
      exact ⟨σ, s', fill_cons_eq_ok.2 ⟨i, _, hread, hhas, hfill⟩, hshuffles⟩
  | swap q p rest =>
      have hne : p.id ≠ q.id := fun heq =>
        (List.nodup_cons.1 hdistinct).1 (by simp [heq])
      exact fill_swap hr hne h
  | trans hfirst _ ih ih' =>
      obtain ⟨σ, s₁, hfill, hshuffles⟩ := ih hr hdistinct h
      obtain ⟨τ, s₂, hfill', hshuffles'⟩ :=
        ih' (hr.perm hfirst) ((hfirst.map _).nodup_iff.1 hdistinct) hfill
      exact ⟨τ ∘ σ, s₂, hfill', hshuffles.trans hshuffles'⟩

/-- Bodies of a document that were read in another order can be read in theirs. -/
theorem fill_pendingOf {l : Loader} {d : Document} {ids : Table InstanceId} (hl : l.Sound)
    (hstages : l.Stages (l.assigned d ids)) (hperm : pending.Perm (l.pendingOf d))
    (h : fill (l.assigned d ids).scope pending (l.readyFor d).registry = .ok s) :
    ∃ σ s', fill (l.assigned d ids).scope (l.pendingOf d) (l.readyFor d).registry = .ok s' ∧
      Shuffles (l.readyFor d).registry.instances.length σ s s' := by
  have hreadable : Readable (l.assigned d ids).scope (l.readyFor d).registry.instances.length pending
      (l.readyFor d).registry :=
    ⟨fun _ _ hid => hstages.has_of_target? hl hid, Nat.le_refl _, hstages.closed,
      fun p hp => pendingOf_below (hperm.mem_iff.1 hp)⟩
  exact fill_perm hperm hreadable ((hperm.map _).nodup_iff.2 (nodup_ids_pendingOf l d)) h

end Loader

end SchemaTyping
