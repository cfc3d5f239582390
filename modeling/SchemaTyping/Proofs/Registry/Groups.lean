import Mathlib.Data.List.Nodup
import SchemaTyping.Proofs.Registry.History
import SchemaTyping.Proofs.Registry.Names

set_option autoImplicit false

/-! # Groups of names

The names of an instance are asked for in two ways: `Registry.reference?` goes through the entries for one
instance, `Registry.aliases` goes through them once for all instances. Both give `Registry.namesOf`, so a
reference is ambiguous exactly when its names are one of the groups.

The groups stand in the order of their first names. An instance keeps its first name while others are bound to
it, so the first names of all instances are, in turn, some of the names of the registry in their order
(`Registry.firstNames_sublist`); that of a new instance comes last in both. -/

namespace SchemaTyping.Registry

variable {r : Registry} {id : InstanceId} {name : String}

/-! ## The names of one instance -/

theorem reference?_eq_none_iff : r.reference? id = none ↔ r.namesOf id = [] := by
  rw [reference?_eq]
  split
  · next hnone => simp [hnone]
  · next hnames => simp [hnames]

theorem namesOf_eq_nil_iff (h : r.entries.names.Nodup) :
    r.namesOf id = [] ↔ ∀ name, r.get? name ≠ some id := by
  simp only [List.eq_nil_iff_forall_not_mem, mem_namesOf, get?, ne_eq, Table.get?_eq_some_iff h]

theorem isAmbiguous_iff {reference : Reference} :
    reference.isAmbiguous = true ↔ 1 < reference.names.length := by
  simp [Reference.isAmbiguous, Reference.names, List.length_pos_iff]

/-- The names of an instance are a group of aliases when there are several of them. -/
theorem namesOf_mem_aliases : r.namesOf id ∈ r.aliases ↔ 1 < (r.namesOf id).length := by
  rw [mem_aliases]
  constructor
  · rintro ⟨-, -, hlength⟩
    exact hlength
  · intro hlength
    exact ⟨id, rfl, hlength⟩

/-! ## The order of the groups -/

/-- The place of a name in registry order. -/
def position (r : Registry) (name : String) : Nat := r.entries.names.idxOf name

/-- The first name of each instance that has any, in the order in which the instances were named first. -/
def firstNames (r : Registry) : List String :=
  (r.entries.map (·.2)).eraseDups.filterMap fun id => (r.namesOf id).head?

/-- A further name is the first one of its instance if that had none, and is the last name in any case. -/
theorem firstNames_named (r : Registry) (name : String) (id : InstanceId) :
    (r.named name id).firstNames
      = if id ∈ r.entries.map (·.2) then r.firstNames else r.firstNames ++ [name] := by
  have hids : ((r.named name id).entries.map (·.2)).eraseDups
      = if id ∈ r.entries.map (·.2) then (r.entries.map (·.2)).eraseDups
        else (r.entries.map (·.2)).eraseDups ++ [id] := by
    rw [named, List.map_append, List.map_singleton, eraseDups_concat]
  have hsome : ∀ other ∈ (r.entries.map (·.2)).eraseDups,
      ((r.named name id).namesOf other).head? = (r.namesOf other).head? := by
    intro other hother
    obtain ⟨entry, hentry, rfl⟩ := List.mem_map.1 (List.mem_eraseDups.1 hother)
    have hne : r.namesOf entry.2 ≠ [] := List.ne_nil_of_mem (mem_namesOf.2 hentry)
    rw [namesOf_named]
    split
    · exact List.head?_append_of_ne_nil _ hne
    · rfl
  have hold : (r.entries.map (·.2)).eraseDups.filterMap
      (fun other => ((r.named name id).namesOf other).head?) = r.firstNames :=
    List.filterMap_congr hsome
  rw [firstNames, hids]
  split
  · exact hold
  · next hnew =>
      have hnone : r.namesOf id = [] := by
        refine List.eq_nil_iff_forall_not_mem.2 fun other hother => hnew ?_
        exact List.mem_map.2 ⟨_, mem_namesOf.1 hother, rfl⟩
      rw [List.filterMap_append, hold]
      simp [namesOf_named, hnone]

/-- **The first names stand in registry order.** -/
theorem firstNames_sublist (r : Registry) : r.firstNames.Sublist r.entries.names := by
  obtain ⟨instances, entries⟩ := r
  induction entries using List.reverseRecOn with
  | nil => exact List.Sublist.refl []
  | append_singleton entries entry ih =>
      obtain ⟨name, id⟩ := entry
      let r : Registry := { instances, entries }
      have hnames : (r.named name id).entries.names = r.entries.names ++ [name] := Table.names_append _ _
      show (r.named name id).firstNames.Sublist (r.named name id).entries.names
      rw [firstNames_named, hnames]
      split
      · exact ih.trans (List.sublist_append_left _ _)
      · exact ih.append (List.Sublist.refl _)

/-- The groups are lists of names of instances, each at its place. -/
theorem aliases_sublist (r : Registry) :
    r.aliases.Sublist ((r.entries.map (·.2)).eraseDups.map r.namesOf) := by
  rw [aliases, groups_eq, List.map_map]
  exact List.filter_sublist

theorem sorted_position (h : r.entries.names.Nodup) {names : List String}
    (hsub : names.Sublist r.entries.names) : (names.map r.position).Pairwise (· < ·) := by
  have hall : r.entries.names.Pairwise fun name later => r.position name < r.position later := by
    refine List.pairwise_iff_getElem.2 fun i j hi hj hij => ?_
    simpa only [position, h.idxOf_getElem] using hij
  exact List.pairwise_map.2 (hall.sublist hsub)

/-- The groups are sorted by the places of their first names. -/
theorem aliases_sorted (h : r.entries.names.Nodup) :
    (r.aliases.map fun group => r.position (group.headD "")).Pairwise (· < ·) := by
  have hheads : (r.aliases.filterMap List.head?).Sublist r.entries.names := by
    refine List.Sublist.trans ?_ r.firstNames_sublist
    have hsub := r.aliases_sublist.filterMap List.head?
    rwa [List.filterMap_map] at hsub
  have hfirst : r.aliases.map (fun group => r.position (group.headD ""))
      = (r.aliases.filterMap List.head?).map r.position := by
    rw [List.map_filterMap, ← List.filterMap_eq_map]
    refine List.filterMap_congr fun group hgroup => ?_
    -- a group is never empty, so it has a first name
    obtain ⟨id, rfl, hlength⟩ := mem_aliases.1 hgroup
    cases hnames : r.namesOf id with
    | nil => simp [hnames] at hlength
    | cons name aliases => simp
  rw [hfirst]
  exact sorted_position h hheads

/-- No name stands twice in the groups. -/
theorem nodup_flatten_aliases (h : r.entries.names.Nodup) : r.aliases.flatten.Nodup := by
  refine List.nodup_flatten.2 ⟨fun group hgroup => ?_, ?_⟩
  · obtain ⟨id, rfl, -⟩ := mem_aliases.1 hgroup
    exact nodup_namesOf h id
  · refine List.Pairwise.sublist r.aliases_sublist (List.pairwise_map.2 ?_)
    refine (nodup_eraseDups _).imp fun hne => ?_
    intro name hname hname'
    exact hne (eq_of_mem_namesOf h hname hname')

/-! ## Agreement -/

/-- **The two ways to ask for names agree**, whatever was done with the registry. An instance has no reference
    exactly when no name stands for it; otherwise the reference has all its names in registry order, and is
    ambiguous exactly when these are a group of aliases. The groups are the names of the instances that have
    several, in the order of their first names, and no name stands in two of them. -/
theorem reference?_and_aliases (history : List Operation) :
    (∀ id, (after history).reference? id = none ↔ ∀ name, (after history).get? name ≠ some id) ∧
      (∀ id reference, (after history).reference? id = some reference →
        reference.names = (after history).namesOf id ∧
          (reference.isAmbiguous = true ↔ (after history).namesOf id ∈ (after history).aliases)) ∧
      (∀ group, group ∈ (after history).aliases ↔
        ∃ id, (after history).namesOf id = group ∧ 2 ≤ group.length) ∧
      ((after history).aliases.map fun group => (after history).position (group.headD "")).Pairwise (· < ·) ∧
      (after history).aliases.flatten.Nodup := by
  have hdistinct := (consistent_after history).distinct
  refine ⟨fun id => ?_, fun id reference hreference => ?_, fun group => mem_aliases,
    aliases_sorted hdistinct, nodup_flatten_aliases hdistinct⟩
  · rw [reference?_eq_none_iff, namesOf_eq_nil_iff hdistinct]
  · have hnames := names_of_reference? hreference
    rw [isAmbiguous_iff, namesOf_mem_aliases, hnames]
    exact ⟨rfl, Iff.rfl⟩

end SchemaTyping.Registry
