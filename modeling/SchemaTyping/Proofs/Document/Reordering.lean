import SchemaTyping.Proofs.Document.Filling
import SchemaTyping.Proofs.Document.Targets

set_option autoImplicit false

/-! # The order of the entries of a document

Two documents with the same entries in another order are loaded alike, and the loaders they leave differ in
nothing but ids and order (`Loader.Reachable.feed_reordered`), as long as no alias stands before an alias
that it names (`Loader.Ordered`). Without that condition the order matters: an alias is resolved when only
the schemas before it have their ids.

The ids that the two documents take correspond by a renaming (`Loader.exists_renumbers`); along the second
document every alias gets the id that corresponds to its id in the first (`Loader.Assigned.reorder`); and
the bodies can be read in either order (`Loader.fill_perm`). -/

namespace SchemaTyping

/-! ## Renamings of new ids -/

/-- A renaming that moves only ids from `k` on below `m`. -/
structure Moves (k m : Nat) (σ : InstanceId → InstanceId) : Prop where
  injective : ∀ id id', σ id = σ id' → id = id'
  below : ∀ id, id.index < k → σ id = id
  above : ∀ id, m ≤ id.index → σ id = id

section

variable {k k' m m' : Nat} {σ τ : InstanceId → InstanceId}

theorem Moves.refl (k m : Nat) : Moves k m id := ⟨fun _ _ h => h, fun _ _ => rfl, fun _ _ => rfl⟩

theorem Moves.mono (h : Moves k m σ) (hk : k' ≤ k) (hm : m ≤ m') : Moves k' m' σ where
  injective := h.injective
  below := fun id hid => h.below id (Nat.lt_of_lt_of_le hid hk)
  above := fun id hid => h.above id (Nat.le_trans hm hid)

theorem Moves.trans (h : Moves k m σ) (h' : Moves k m τ) : Moves k m (τ ∘ σ) where
  injective := fun id id' heq => h.injective _ _ (h'.injective _ _ heq)
  below := fun id hid => by rw [Function.comp_apply, h.below id hid, h'.below id hid]
  above := fun id hid => by rw [Function.comp_apply, h.above id hid, h'.above id hid]

/-- Ids that may be moved stay among them. -/
theorem Moves.le_index (h : Moves k m σ) {id : InstanceId} (hid : k ≤ id.index) :
    k ≤ (σ id).index := by
  refine Nat.le_of_not_lt fun hlt => ?_
  have hfixed : σ id = id := h.injective _ _ (h.below _ hlt)
  rw [hfixed] at hlt
  omega

theorem Moves.index_lt (h : Moves k m σ) {id : InstanceId} (hid : id.index < m) :
    (σ id).index < m := by
  refine Nat.lt_of_not_le fun hle => ?_
  have hfixed : σ id = id := h.injective _ _ (h.above _ hle)
  rw [hfixed] at hle
  omega

/-- Two neighbours change places. -/
theorem moves_exchange (k : Nat) : Moves k (k + 2) (exchange k 1 1) where
  injective := fun _ _ h => exchange_injective h
  below := fun _ h => exchange_of_lt h
  above := fun _ h => exchange_of_le h

/-- The positions of a list follow its elements. -/
theorem exists_moves_zipIdx {α : Type} {xs ys : List α} (h : xs.Perm ys) (k : Nat) :
    ∃ σ, Moves k (k + xs.length) σ ∧
      ((xs.zipIdx k).map fun (x, i) => (x, σ ⟨i⟩)).Perm
        ((ys.zipIdx k).map fun (y, i) => (y, (⟨i⟩ : InstanceId))) := by
  induction h generalizing k with
  | nil => exact ⟨id, .refl _ _, .refl _⟩
  | @cons x xs ys _ ih =>
      obtain ⟨σ, hσ, hperm⟩ := ih (k + 1)
      refine ⟨σ, hσ.mono (Nat.le_succ k) (by simp only [List.length_cons]; omega), ?_⟩
      rw [List.zipIdx_cons, List.zipIdx_cons, List.map_cons, List.map_cons]
      have hfirst : σ ⟨k⟩ = ⟨k⟩ := hσ.below ⟨k⟩ (Nat.lt_succ_self k)
      dsimp only
      rw [hfirst]
      exact hperm.cons _
  | swap x y xs =>
      refine ⟨exchange k 1 1, (moves_exchange k).mono (Nat.le_refl k) (by simp), ?_⟩
      have hrest : ((xs.zipIdx (k + 1 + 1)).map fun (z, i) => (z, exchange k 1 1 ⟨i⟩))
          = (xs.zipIdx (k + 1 + 1)).map fun (z, i) => (z, (⟨i⟩ : InstanceId)) := by
        refine List.map_congr_left fun entry hentry => ?_
        have hle := List.le_snd_of_mem_zipIdx hentry
        exact congrArg (Prod.mk entry.1) (exchange_of_le hle)
      simp only [List.zipIdx_cons, List.map_cons]
      rw [hrest]
      have hfirst : exchange k 1 1 ⟨k⟩ = ⟨k + 1⟩ := exchange_first (Nat.le_refl k) (Nat.lt_succ_self k)
      have hsecond : exchange k 1 1 ⟨k + 1⟩ = ⟨k⟩ :=
        exchange_second (Nat.le_refl _) (Nat.lt_succ_self _)
      rw [hfirst, hsecond]
      exact .swap _ _ _
  | trans hfirst _ ih ih' =>
      obtain ⟨σ, hσ, hperm⟩ := ih k
      obtain ⟨τ, hτ, hperm'⟩ := ih' k
      rw [← hfirst.length_eq] at hτ
      refine ⟨τ ∘ σ, hσ.trans hτ, ?_⟩
      have hmapped := hperm.map fun (entry : _ × InstanceId) => (entry.1, τ entry.2)
      simp only [List.map_map] at hmapped
      exact hmapped.trans hperm'

end

namespace Loader

variable {l : Loader} {d d' : Document} {σ : InstanceId → InstanceId}

/-! ## Ids of bodies -/

theorem index_of_mem_waiting {part : String} {k : Nat} {t : Table Json} {p : Pending}
    (hp : p ∈ waiting part k t) : k ≤ p.id.index ∧ p.id.index < k + t.length := by
  obtain ⟨entry, hentry, rfl⟩ := List.mem_map.1 hp
  exact ⟨List.le_snd_of_mem_zipIdx hentry, List.snd_lt_add_of_mem_zipIdx hentry⟩

/-- The ids of a table follow its entries. -/
theorem exists_moves_numbered {t t' : Table Json} (h : t.Perm t') (k : Nat) :
    ∃ σ, Moves k (k + t.length) σ ∧ ((numbered k t).mapValues σ).Perm (numbered k t') ∧
      ∀ part, ((waiting part k t).map (Pending.rename σ)).Perm (waiting part k t') := by
  obtain ⟨σ, hσ, hperm⟩ := exists_moves_zipIdx h k
  refine ⟨σ, hσ, ?_, fun part => ?_⟩
  · have hnumbered := hperm.map fun (entry : (String × Json) × InstanceId) => (entry.1.1, entry.2)
    rw [List.map_map, List.map_map] at hnumbered
    rw [numbered, Table.mapValues, List.map_map]
    exact hnumbered
  · have hwaiting := hperm.map fun (entry : (String × Json) × InstanceId) =>
      (⟨Body.atKey part entry.1.1, entry.2, entry.1.2⟩ : Pending)
    rw [List.map_map, List.map_map] at hwaiting
    rw [waiting, List.map_map]
    exact hwaiting

/-- The ids that two documents take correspond. -/
structure Renumbers (l : Loader) (σ : InstanceId → InstanceId) (d d' : Document) : Prop where
  moves : Moves l.registry.instances.length (l.readyFor d).registry.instances.length σ
  instances : ((numbered l.registry.instances.length d.instances).mapValues σ).Perm
    (numbered l.registry.instances.length d'.instances)
  bodies : ((l.bodyIds d).mapValues σ).Perm (l.bodyIds d')
  pending : ((l.pendingOf d).map (Pending.rename σ)).Perm (l.pendingOf d')

theorem exists_renumbers (l : Loader) (hschemas : d.schemas.Perm d'.schemas)
    (hinstances : d.instances.Perm d'.instances) : ∃ σ, l.Renumbers σ d d' := by
  have hown : (ownBodies d.schemas).Perm (ownBodies d'.schemas) := hschemas.filter _
  obtain ⟨σ, hσ, hnumbered, hwaiting⟩ := exists_moves_numbered hinstances l.registry.instances.length
  obtain ⟨τ, hτ, hnumbered', hwaiting'⟩ :=
    exists_moves_numbered hown (l.registry.instances.length + d.instances.length)
  -- each of the two moves nothing that the other moves
  have hleft {id : InstanceId} (hid : id.index < l.registry.instances.length + d.instances.length) :
      (σ ∘ τ) id = σ id := congrArg σ (hτ.below id hid)
  have hright {id : InstanceId} (hid : l.registry.instances.length + d.instances.length ≤ id.index) :
      (σ ∘ τ) id = τ id := hσ.above _ (hτ.le_index hid)
  refine ⟨σ ∘ τ, ?_, ?_, ?_, ?_⟩
  · rw [length_readyFor]
    exact (hτ.mono (by omega) (by omega)).trans (hσ.mono (by omega) (by omega))
  · rw [Table.mapValues_congr fun entry hentry => hleft (index_of_mem_numbered hentry).2]
    exact hnumbered
  · rw [bodyIds, bodyIds, ← hinstances.length_eq,
      Table.mapValues_congr fun entry hentry => hright (index_of_mem_numbered hentry).1]
    exact hnumbered'
  · rw [pendingOf, pendingOf, List.map_append, ← hinstances.length_eq,
      map_rename_congr fun p hp => hleft (index_of_mem_waiting hp).2,
      map_rename_congr fun p hp => hright (index_of_mem_waiting hp).1]
    exact (hwaiting _).append (hwaiting' _)

/-- As many ids are taken for either document. -/
theorem registry_readyFor_perm (l : Loader) (hschemas : d.schemas.Perm d'.schemas)
    (hinstances : d.instances.Perm d'.instances) :
    (l.readyFor d').registry = (l.readyFor d).registry := by
  have hown : (ownBodies d.schemas).Perm (ownBodies d'.schemas) := hschemas.filter _
  simp only [readyFor, withInstances, hown.length_eq, hinstances.length_eq]

section

variable (hl : l.Sound)

include hl

/-! ## What names refer to -/

theorem Renumbers.get?_registry (h : l.Renumbers σ d d') (name : String) :
    (l.registry.get? name).map σ = l.registry.get? name := by
  cases hid : l.registry.get? name with
  | none => rfl
  | some id => exact congrArg some (h.moves.below id (hl.closed.entries _ (Table.mem_of_get?_eq_some hid)))

theorem Renumbers.mapValues_instances (h : l.Renumbers σ d d') :
    l.instances.mapValues σ = l.instances :=
  Table.mapValues_eq_self fun entry hentry => h.moves.below _ (hl.instances entry hentry)

/-- The named instances of the document and of earlier ones. -/
theorem Renumbers.perm_instances (h : l.Renumbers σ d d') :
    ((l.instancesWith d).mapValues σ).Perm (l.instancesWith d') := by
  rw [Table.mapValues, instancesWith, List.map_append]
  exact .append (.of_eq (h.mapValues_instances hl)) h.instances

theorem Renumbers.get?_instances (h : l.Renumbers σ d d') (hnames : d.instances.names.Nodup)
    (name : String) :
    (l.instancesWith d').get? name = ((l.instancesWith d).get? name).map σ := by
  have hdistinct : ((numbered l.registry.instances.length d.instances).mapValues σ).names.Nodup := by
    rw [Table.names_mapValues, names_numbered]
    exact hnames
  have hold := Table.get?_mapValues σ name l.instances
  rw [h.mapValues_instances hl] at hold
  rw [instancesWith, instancesWith, Table.get?_append, Table.get?_append, Option.map_or, ← hold,
    ← Table.get?_perm h.instances hdistinct, Table.get?_mapValues]

theorem Renumbers.seeing (h : l.Renumbers σ d d') (hnames : d.instances.names.Nodup)
    {seen seen' : Table InstanceId} {name : String}
    (hseen : seen'.get? name = (seen.get? name).map σ) :
    (l.readyFor d').seeing seen' name = ((l.readyFor d).seeing seen name).map σ := by
  rw [seeing_readyFor hl, seeing_readyFor hl, Option.map_or, Option.map_or, h.get?_registry hl, hseen,
    h.get?_instances hl hnames name]

end

/-! ## Aliases -/

/-- No alias stands before another one that it names. -/
def Ordered (t : Table Json) : Prop :=
  t.Pairwise fun entry later => aliasTarget? entry.2 = some later.1 → aliasTarget? later.2 = none

instance (t : Table Json) : Decidable (Ordered t) :=
  inferInstanceAs (Decidable (t.Pairwise fun entry later =>
    aliasTarget? entry.2 = some later.1 → aliasTarget? later.2 = none))

/-- A target that has no body of its own stands before the alias, unless it is no schema or the alias
    itself. -/
theorem Ordered.mem_before {t before after : Table Json} {name target : String} {body : Json}
    (h : Ordered t) (ht : t.names.Nodup) (hsplit : t = before ++ (name, body) :: after)
    (halias : aliasTarget? body = some target)
    (hbodies : ∀ other, (target, other) ∈ t → (aliasTarget? other).isSome) :
    target ∈ before.names ↔ target ∈ t.names ∧ target ≠ name := by
  subst hsplit
  have hnames : Table.names (before ++ (name, body) :: after) = before.names ++ name :: after.names :=
    Table.names_append _ _
  rw [hnames] at ht ⊢
  constructor
  · intro hbefore
    refine ⟨List.mem_append_left _ hbefore, ?_⟩
    exact (List.nodup_append.1 ht).2.2 target hbefore name List.mem_cons_self
  · rintro ⟨hmem, hne⟩
    rcases List.mem_append.1 hmem with hbefore | hrest
    · exact hbefore
    · exfalso
      obtain ⟨⟨other, otherBody⟩, hentry, rfl⟩ :=
        List.mem_map.1 ((List.mem_cons.1 hrest).resolve_left hne)
      have hlater := (List.pairwise_cons.1 (List.pairwise_append.1 h).2.1).1 _ hentry halias
      have hsome := hbodies otherBody (List.mem_append_right _ (List.mem_cons_of_mem _ hentry))
      exact Option.isSome_iff_ne_none.1 hsome hlater

/-- A schema gets the corresponding id in the reordered document. -/
theorem Renumbers.idOf_eq (hl : l.Sound) (h : l.Renumbers σ d d') (hd : d.Proper)
    (hschemas : d.schemas.Perm d'.schemas) (ho : Ordered d.schemas) (ho' : Ordered d'.schemas)
    {before after before' after' : Table Json} {name : String} {body : Json}
    (hsplit : d.schemas = before ++ (name, body) :: after)
    (hsplit' : d'.schemas = before' ++ (name, body) :: after') (f : String → InstanceId) :
    idOf (l.bodyIds d') ((l.readyFor d').seeing (.ofNames before'.names (σ ∘ f))) name body
      = (idOf (l.bodyIds d) ((l.readyFor d).seeing (.ofNames before.names f)) name body).map σ := by
  have hbodies (other : String) :
      (l.bodyIds d').get? other = ((l.bodyIds d).get? other).map σ := by
    rw [← Table.get?_mapValues, Table.get?_perm h.bodies]
    rw [Table.names_mapValues, bodyIds, names_numbered]
    exact nodup_names_ownBodies hd.schemas.names
  unfold idOf
  cases halias : aliasTarget? body with
  | none => exact hbodies name
  | some target =>
      dsimp only
      rw [hbodies target]
      cases hbody : (l.bodyIds d).get? target with
      | some id => rfl
      | none =>
          rw [Option.map_none, Option.none_or, Option.none_or]
          refine h.seeing hl hd.instances.names ?_
          have hnone := get?_bodyIds_eq_none_iff.1 hbody
          -- in either order the target stands before unless it is no schema or the alias itself
          have hwhere : target ∈ before'.names ↔ target ∈ before.names := by
            have hnames := hschemas.map Prod.fst
            rw [ho.mem_before hd.schemas.names hsplit halias hnone,
              ho'.mem_before (hnames.nodup_iff.1 hd.schemas.names) hsplit' halias
                fun other hother => hnone other (hschemas.mem_iff.2 hother)]
            exact and_congr_left' hnames.mem_iff.symm
          rw [Table.get?_ofNames, Table.get?_ofNames, if_congr hwhere rfl rfl]
          split <;> rfl

/-- **Aliases are assigned in either order.** -/
theorem Assigned.reorder (hl : l.Sound) (h : l.Renumbers σ d d') (hd : d.Proper)
    (hschemas : d.schemas.Perm d'.schemas) (ho : Ordered d.schemas) (ho' : Ordered d'.schemas)
    {ids : Table InstanceId}
    (hids : Assigned (l.bodyIds d) (l.readyFor d).seeing [] d.schemas ids) :
    ∃ ids', Assigned (l.bodyIds d') (l.readyFor d').seeing [] d'.schemas ids' ∧
      (ids.mapValues σ).Perm ids' := by
  obtain ⟨f, rfl⟩ := hids.exists_ofNames hd.schemas.names
  refine ⟨.ofNames d'.schemas.names (σ ∘ f), assigned_ofNames_iff.2 ?_, ?_⟩
  · intro before' name body after' hsplit'
    have hmem : (name, body) ∈ d.schemas := hschemas.mem_iff.2 (by simp [hsplit'])
    obtain ⟨before, after, hsplit⟩ := List.append_of_mem hmem
    have hid := assigned_ofNames_iff.1 hids before name body after hsplit
    rw [List.nil_append] at hid ⊢
    rw [h.idOf_eq hl hd hschemas ho ho' hsplit hsplit', hid]
    rfl
  · rw [Table.mapValues_ofNames]
    exact (hschemas.map Prod.fst).map _

/-! ## Bodies -/

theorem Unused.perm (h : l.Unused d) (hschemas : d.schemas.Perm d'.schemas)
    (hinstances : d.instances.Perm d'.instances) : l.Unused d' where
  schemas := fun name hname => h.schemas name ((hschemas.map _).mem_iff.2 hname)
  instances := fun name hname => h.instances name ((hinstances.map _).mem_iff.2 hname)

/-- Before the bodies are read nothing but the old instances can be told apart. -/
theorem Renumbers.inStep (hl : l.Sound) (h : l.Renumbers σ d d') :
    (l.readyFor d).registry.InStep σ (l.readyFor d).registry := by
  have hmoves := h.moves
  rw [registry_readyFor] at hmoves ⊢
  refine (Registry.inStep_reserveMany hl.closed _).claim hl.closed (fun id hid => ?_) hmoves.injective
    (fun id hid hhas => ?_) fun j => ?_
  · rw [shift_of_lt hid]
    exact hmoves.below id hid
  · exact l.registry.instance?_reserveMany (hmoves.le_index hid) (hmoves.index_lt hhas)
  · rw [← Registry.length_reserveMany]
    exact hmoves.above _ (Nat.le_add_right _ _)

/-! ## Documents -/

/-- `m'` is `m` with its ids replaced, and its names in any order. -/
structure Corresponds (σ : InstanceId → InstanceId) (m m' : Loader) : Prop where
  options : m'.options = m.options
  injective : ∀ id id', σ id = σ id' → id = id'
  length : m'.registry.instances.length = m.registry.instances.length
  instance? : ∀ id, m.registry.Has id →
    m'.registry.instance? (σ id) = (m.registry.instance? id).map (Instance.rename σ)
  entries : (m.registry.entries.mapValues σ).Perm m'.registry.entries
  get? : ∀ name, m'.registry.get? name = (m.registry.get? name).map σ
  instances : (m.instances.mapValues σ).Perm m'.instances
  refer : ∀ name, m'.refer name = (m.refer name).map σ

section

variable {ids ids' : Table InstanceId} {r s : Registry}

/-- When all schemas have their ids, names refer to corresponding instances. -/
theorem Renumbers.target?_assigned (hl : l.Sound) (h : l.Renumbers σ d d') (hd : d.Proper)
    (hids : Assigned (l.bodyIds d) (l.readyFor d).seeing [] d.schemas ids)
    (hperm : (ids.mapValues σ).Perm ids') (name : String) :
    (l.assigned d' ids').target? name = ((l.assigned d ids).target? name).map σ := by
  refine h.seeing hl hd.instances.names ?_
  rw [← Table.get?_perm hperm, Table.get?_mapValues]
  rw [Table.names_mapValues, hids.names]
  exact hd.schemas.names

/-- The bodies of the first document can be read with the ids of the second, and then in its order. Only
    inline instances are moved by the order. -/
theorem Renumbers.fill_reordered (hl : l.Sound) (h : l.Renumbers σ d d')
    (hready : (l.readyFor d').registry = (l.readyFor d).registry)
    (hstages : l.Stages (l.assigned d' ids'))
    (htarget : ∀ name, (l.assigned d' ids').target? name = ((l.assigned d ids).target? name).map σ)
    (hr : fill (l.assigned d ids).scope (l.pendingOf d) (l.readyFor d).registry = .ok r) :
    ∃ τ s, fill (l.assigned d' ids').scope (l.pendingOf d') (l.readyFor d').registry = .ok s ∧
      r.InStep (τ ∘ σ) s ∧ s.instances.length = r.instances.length ∧
      ∀ id, (l.assigned d' ids').registry.Has id → τ id = id := by
  have hscope : (l.assigned d' ids').scope = (l.assigned d ids).scope.rename σ := by
    simp only [scope, Scope.rename, funext htarget]
    rfl
  obtain ⟨s, hs, hstep⟩ := fill_inStep (h.inStep hl) hr
  have hlength : s.instances.length = r.instances.length :=
    (h.inStep hl).length_eq hstep rfl (fill_keeps hr).2.1
  rw [← hscope, ← hready] at hs
  obtain ⟨τ, s', hs', hshuffles⟩ := fill_pendingOf hl hstages h.pending hs
  exact ⟨τ, s', hs', hstep.trans hshuffles.inStep, hshuffles.length.trans hlength, hshuffles.below⟩

/-- The loaders that are left correspond when what was read is in step. -/
theorem Renumbers.corresponds (hl : l.Sound) (h : l.Renumbers σ d d') {τ : InstanceId → InstanceId}
    (hstages : l.Stages (l.assigned d' ids')) (hperm : (ids.mapValues σ).Perm ids')
    (hnames : (l.loaded d ids r).registry.entries.names.Nodup)
    (htarget : ∀ name, (l.assigned d' ids').target? name = ((l.assigned d ids).target? name).map σ)
    (hstep : r.InStep (τ ∘ σ) s) (hlength : s.instances.length = r.instances.length)
    (hfixed : ∀ id, (l.assigned d' ids').registry.Has id → τ id = id) :
    (l.loaded d ids r).Corresponds (τ ∘ σ) (l.loaded d' ids' s) := by
  -- what corresponds before the bodies are read still does: no name refers to an inline instance
  have hnamed {t u : Table InstanceId} (hperm : (t.mapValues σ).Perm u)
      (hu : ∀ entry ∈ u, (l.assigned d' ids').registry.Has entry.2) :
      (t.mapValues (τ ∘ σ)).Perm u := by
    rw [← Table.mapValues_mapValues, Table.mapValues_eq_self fun entry hentry =>
      hfixed _ (hu entry (hperm.mem_iff.1 hentry))]
    exact hperm
  have hentries : ((l.registry.entries ++ ids : Table InstanceId).mapValues (τ ∘ σ)).Perm
      (l.registry.entries ++ ids') := by
    refine hnamed ?_ fun entry hentry => ?_
    · rw [Table.mapValues, List.map_append]
      exact .append (.of_eq (h.inStep hl).entries.symm) hperm
    · rcases List.mem_append.1 hentry with hold | hnew
      · exact hstages.closed.entries entry hold
      · exact hstages.stagedSchemas entry hnew
  refine ⟨rfl, hstep.injective, hlength, hstep.instance?, hentries, fun name => ?_, ?_, fun name => ?_⟩
  · refine (Table.get?_perm hentries ?_ name).symm.trans (Table.get?_mapValues _ _ _)
    rw [Table.names_mapValues]
    exact hnames
  · refine hnamed (h.perm_instances hl) fun entry hentry => ?_
    rcases List.mem_append.1 hentry with hold | hnew
    · exact hstages.registry.has (hl.instances entry hold)
    · exact hstages.stagedInstances entry (List.mem_append_right _ hnew)
  · rw [refer_loaded hl, refer_loaded hl, htarget name]
    cases hid : (l.assigned d ids).target? name with
    | none => rfl
    | some id =>
        have hsecond := htarget name
        rw [hid] at hsecond
        exact congrArg some (hfixed _ (hstages.has_of_target? hl hsecond)).symm

end

/-- A document that is loaded is loaded in any order that puts no alias before one that it names, and the
    loaders that are left correspond. -/
theorem load_reordered (hl : l.Sound) (hd : d.Proper) (hd' : d'.Proper)
    (hschemas : d.schemas.Perm d'.schemas) (hinstances : d.instances.Perm d'.instances)
    (ho : Ordered d.schemas) (ho' : Ordered d'.schemas) {m : Loader} (hm : l.load d = (.ok (), m)) :
    ∃ σ m', l.load d' = (.ok (), m') ∧ (∀ id, l.registry.Has id → σ id = id) ∧
      m.Corresponds σ m' := by
  have hsound := (load_gains_or_keeps hl hd).1
  rw [hm] at hsound
  obtain ⟨hvalid, hunused, ids, r, hids, hr, rfl⟩ := (load_eq_ok hl hd).1 hm
  obtain ⟨σ, hσ⟩ := exists_renumbers l hschemas hinstances
  obtain ⟨ids', hids', hperm⟩ := hids.reorder hl hσ hd hschemas ho ho'
  have hunused' := hunused.perm hschemas hinstances
  have hstages' := stages_assigned hl hd'.schemas.names hd'.instances.names hunused' hids'
  have htarget := hσ.target?_assigned hl hd hids hperm
  obtain ⟨τ, s, hs, hstep, hlength, hfixed⟩ := hσ.fill_reordered hl
    (registry_readyFor_perm l hschemas hinstances) hstages' htarget hr
  refine ⟨τ ∘ σ, l.loaded d' ids' s, ?_, fun id hid => ?_, ?_⟩
  · exact (load_eq_ok hl hd').2 ⟨hvalid, hunused', ids', s, hids', hs, rfl⟩
  · rw [Function.comp_apply, hσ.moves.below id hid]
    exact hfixed id (hstages'.registry.has hid)
  · exact hσ.corresponds hl hstages' hperm hsound.entries htarget hstep hlength hfixed

/-! ## Undefined targets -/

/-- The instance a name refers to when these schemas have their ids. -/
theorem seeing_eq_none_iff (hl : l.Sound) {seen : Table InstanceId} {name : String} :
    (l.readyFor d).seeing seen name = none ↔
      l.refer name = none ∧ name ∉ seen.names ∧ name ∉ d.instances.names := by
  rw [seeing_readyFor hl, instancesWith, Table.get?_append, Option.or_eq_none_iff, Option.or_eq_none_iff,
    Option.or_eq_none_iff, Table.get?_eq_none_iff (t := numbered _ _), names_numbered,
    Table.get?_eq_none_iff (t := seen), refer, Option.or_eq_none_iff]
  constructor
  · rintro ⟨hentry, hseen, hold, hnew⟩
    exact ⟨⟨hentry, hold⟩, hseen, hnew⟩
  · rintro ⟨⟨hentry, hold⟩, hseen, hnew⟩
    exact ⟨hentry, hseen, hold, hnew⟩

theorem load_eq_unknownRef (hl : l.Sound) (hd : d.Proper) {place target : String}
    (h : (l.load d).1 = .error (.unknownRef place target)) :
    (exec (stage d) l).1 = .error (.unknownRef place target) := by
  cases hvalid : l.options.validate with
  | error e =>
      rw [load_eq_exec, hvalid] at h
      cases h
      unfold Options.validate at hvalid
      repeat' split at hvalid
      all_goals cases hvalid
  | ok =>
      rw [load_eq hl hd hvalid] at h
      rcases hrun : exec (stage d) l with ⟨outcome, staged⟩
      rw [hrun] at h
      cases outcome with
      | error e => exact h
      | ok => cases h

/-- A target that is refused is defined nowhere, or it is an alias for itself. -/
theorem undefined_of_load (hl : l.Sound) (hd : d.Proper) (ho : Ordered d.schemas)
    {place target : String} (h : (l.load d).1 = .error (.unknownRef place target)) :
    l.refer target = none ∧ target ∉ d.instances.names ∧
      ∀ body, (target, body) ∈ d.schemas → aliasTarget? body = some target := by
  rcases stage_eq_unknownRef hl hd.schemas.names hd.instances.names (load_eq_unknownRef hl hd h) with
    ⟨before, after, name, body, ids, hsplit, halias, hids, hnone⟩ | ⟨ids, hids, hnone⟩
  · obtain ⟨hbody, hseeing⟩ := Option.or_eq_none_iff.1 hnone
    obtain ⟨hrefer, hseen, hinstances⟩ := (seeing_eq_none_iff hl).1 hseeing
    refine ⟨hrefer, hinstances, fun other hother => ?_⟩
    have hbodies := get?_bodyIds_eq_none_iff.1 hbody
    -- the target is a schema that does not stand before the alias, so it is the alias
    have hname : target = name := by
      by_contra hne
      rw [hids.names, ho.mem_before hd.schemas.names hsplit halias hbodies] at hseen
      exact hseen ⟨List.mem_map.2 ⟨_, hother, rfl⟩, hne⟩
    have hmem : (name, body) ∈ d.schemas := by simp [hsplit]
    rw [← hname] at hmem
    cases (Table.get?_of_mem hd.schemas.names hother).symm.trans
      (Table.get?_of_mem hd.schemas.names hmem)
    exact halias
  · obtain ⟨hrefer, hseen, hinstances⟩ := (seeing_eq_none_iff hl).1 hnone
    rw [hids.names] at hseen
    exact ⟨hrefer, hinstances, fun body hbody => absurd (List.mem_map.2 ⟨_, hbody, rfl⟩) hseen⟩

/-! ## Sources -/

/-- **The order of the entries of a document.** Take two documents with the same schemas and the same
    instances in any order, but with no alias before another alias that it names. One is loaded if and only
    if the other is. The loaders that are left then correspond by a renaming that keeps the ids of earlier
    documents: the instances are the same, the names are bound to corresponding instances and refer to
    corresponding instances from now on. In particular a target is refused as undefined only if it is
    defined nowhere or is an alias for itself. -/
theorem Reachable.feed_reordered (h : l.Reachable) {source source' : Source}
    (hdocument : source.document = .ok d) (hdocument' : source'.document = .ok d')
    (hschemas : d.schemas.Perm d'.schemas) (hinstances : d.instances.Perm d'.instances)
    (ho : Ordered d.schemas) (ho' : Ordered d'.schemas) :
    ((l.feed source).1 = .ok () ↔ (l.feed source').1 = .ok ()) ∧
    (∀ m m', l.feed source = (.ok (), m) → l.feed source' = (.ok (), m') →
      ∃ σ, (∀ id, l.registry.Has id → σ id = id) ∧ m.Corresponds σ m') ∧
    ∀ place target, (l.feed source).1 = .error (.unknownRef place target) →
      l.refer target = none ∧ target ∉ d.instances.names ∧
        ∀ body, (target, body) ∈ d.schemas → aliasTarget? body = some target := by
  have hl := h.sound
  have hd := source.proper_of_document hdocument
  have hd' := source'.proper_of_document hdocument'
  rw [feed_of_document_eq_ok hdocument, feed_of_document_eq_ok hdocument']
  refine ⟨⟨fun hok => ?_, fun hok => ?_⟩, fun m m' hm hm' => ?_, fun place target => ?_⟩
  · obtain ⟨_, _, hload, -⟩ :=
      load_reordered hl hd hd' hschemas hinstances ho ho' (m := (l.load d).2) (Prod.ext hok rfl)
    rw [hload]
  · obtain ⟨_, _, hload, -⟩ := load_reordered hl hd' hd hschemas.symm hinstances.symm ho' ho
      (m := (l.load d').2) (Prod.ext hok rfl)
    rw [hload]
  · obtain ⟨σ, _, hload, hkept, hcorresponds⟩ :=
      load_reordered hl hd hd' hschemas hinstances ho ho' hm
    cases hload.symm.trans hm'
    exact ⟨σ, hkept, hcorresponds⟩
  · exact undefined_of_load hl hd ho

/-- A body, and two names for it of which the second names the first. -/
def bodyThenAliases : Source :=
  .value (.object [("schemas", .object
      [("C", .object [("n", .text "Number")]), ("B", aliasOf "C"), ("A", aliasOf "B")])])
    (by simp [aliasOf, Table.names])

/-- The same schemas, the first alias before the body. -/
def aliasThenBody : Source :=
  .value (.object [("schemas", .object
      [("B", aliasOf "C"), ("C", .object [("n", .text "Number")]), ("A", aliasOf "B")])])
    (by simp [aliasOf, Table.names])

/-- The same schemas, the second alias before the first. -/
def aliasesTurned : Source :=
  .value (.object [("schemas", .object
      [("A", aliasOf "B"), ("B", aliasOf "C"), ("C", .object [("n", .text "Number")])])])
    (by simp [aliasOf, Table.names])

/-- The body can stand anywhere. -/
theorem feed_aliasThenBody :
    ∃ m m' σ, feed { options := {} } bodyThenAliases = (.ok (), m) ∧
      feed { options := {} } aliasThenBody = (.ok (), m') ∧ m.Corresponds σ m' := by
  have hdocument : bodyThenAliases.document = .ok _ := rfl
  have hdocument' : aliasThenBody.document = .ok _ := rfl
  obtain ⟨hiff, hcorresponds, -⟩ := (Reachable.start {}).feed_reordered hdocument hdocument'
    (.swap _ _ _) (.refl _) (by decide +kernel) (by decide +kernel)
  have hok : (feed { options := {} } bodyThenAliases).1 = .ok () := by
    have hisOk : (feed { options := {} } bodyThenAliases).1.isOk = true := by decide +kernel
    cases hrun : (feed { options := {} } bodyThenAliases).1 with
    | ok => rfl
    | error e =>
        rw [hrun] at hisOk
        cases hisOk
  obtain ⟨σ, -, h⟩ := hcorresponds _ _ (Prod.ext hok rfl) (Prod.ext (hiff.1 hok) rfl)
  exact ⟨_, _, σ, Prod.ext hok rfl, Prod.ext (hiff.1 hok) rfl, h⟩

/-- An alias cannot stand before one that it names: the same schemas are refused in one order and loaded in
    another. -/
theorem order_of_aliases_matters :
    (∃ d d', aliasesTurned.document = .ok d ∧ bodyThenAliases.document = .ok d' ∧
      d.schemas.Perm d'.schemas ∧ d.instances = d'.instances) ∧
    (feed { options := {} } aliasesTurned).1.isOk = false ∧
      (feed { options := {} } bodyThenAliases).1.isOk = true := by
  refine ⟨⟨_, _, rfl, rfl, ?_, rfl⟩, by decide +kernel, by decide +kernel⟩
  -- three neighbours change places
  exact ((List.Perm.swap _ _ _).trans (.cons _ (.swap _ _ _))).trans (.swap _ _ _)

end Loader

end SchemaTyping
