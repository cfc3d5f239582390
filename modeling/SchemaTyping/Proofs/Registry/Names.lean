import Mathlib.Data.List.Induction
import SchemaTyping.Proofs.Registry.Closed
import SchemaTyping.Registry.Alias

set_option autoImplicit false

/-! # The names of an instance

`Registry.namesOf` lists the names that are bound to an instance. The other two ways to ask for names come
down to it: `Registry.reference?` has its first name and the others, and the groups that a single pass
over the entries makes are these lists, for each instance with a name at the place of its first one
(`Registry.groups_eq`). -/

namespace SchemaTyping

/-! ## First occurrences -/

section

variable {α : Type} [BEq α] [LawfulBEq α]

theorem eraseDups_concat (xs : List α) (x : α) [Decidable (x ∈ xs)] :
    (xs ++ [x]).eraseDups = if x ∈ xs then xs.eraseDups else xs.eraseDups ++ [x] := by
  by_cases hx : x ∈ xs <;> simp [List.eraseDups_append, List.removeAll, hx, List.eraseDups_cons]

theorem nodup_eraseDups (xs : List α) : xs.eraseDups.Nodup := by
  classical
  induction xs using List.reverseRecOn with
  | nil => exact List.nodup_nil
  | append_singleton xs x ih =>
      rw [eraseDups_concat]
      split
      · exact ih
      · next hx =>
          refine List.nodup_append.2 ⟨ih, by simp, fun a ha b hb hab => ?_⟩
          rw [List.mem_singleton.1 hb] at hab
          exact hx (List.mem_eraseDups.1 (hab ▸ ha))

end

section

variable {α β : Type} [DecidableEq β] {f : α → Option β} {xs : List α} {ys ys' : List β} {y : β}

/-- The place of the first element in which `f` finds the value. -/
def firstPlace (f : α → Option β) (xs : List α) (y : β) : Nat := xs.findIdx fun x => f x = some y

/-- The values that `f` finds in a list, each once and in the order in which they are found first. -/
structure FoundInOrder (f : α → Option β) (xs : List α) (ys : List β) : Prop where
  mem : ∀ y, y ∈ ys ↔ ∃ x ∈ xs, f x = some y
  sorted : ys.Pairwise fun y later => firstPlace f xs y < firstPlace f xs later

theorem firstPlace_lt_length : firstPlace f xs y < xs.length ↔ ∃ x ∈ xs, f x = some y := by
  simp [firstPlace, List.findIdx_lt_length]

theorem firstPlace_append (more : List α) : firstPlace f (xs ++ more) y =
    if firstPlace f xs y < xs.length then firstPlace f xs y else firstPlace f more y + xs.length := by
  rw [firstPlace, List.findIdx_append]
  rfl

theorem foundInOrder_eraseDups (f : α → Option β) (xs : List α) :
    FoundInOrder f xs (xs.filterMap f).eraseDups := by
  refine ⟨fun y => by rw [List.mem_eraseDups, List.mem_filterMap], ?_⟩
  induction xs using List.reverseRecOn with
  | nil => exact List.Pairwise.nil
  | append_singleton xs x ih =>
      -- what is found already keeps its place, and what is new is found last
      have hfound : ∀ y ∈ (xs.filterMap f).eraseDups, firstPlace f (xs ++ [x]) y = firstPlace f xs y ∧
          firstPlace f xs y < xs.length := by
        intro y hy
        have hlt := firstPlace_lt_length.2 (List.mem_filterMap.1 (List.mem_eraseDups.1 hy))
        exact ⟨by rw [firstPlace_append, if_pos hlt], hlt⟩
      have hold : (xs.filterMap f).eraseDups.Pairwise fun y later =>
          firstPlace f (xs ++ [x]) y < firstPlace f (xs ++ [x]) later := by
        refine ih.imp_of_mem fun hy hlater h => ?_
        rwa [(hfound _ hy).1, (hfound _ hlater).1]
      rw [List.filterMap_append]
      cases hx : f x with
      | none => simpa [hx] using hold
      | some y =>
          have hconcat : xs.filterMap f ++ [x].filterMap f = xs.filterMap f ++ [y] := by simp [hx]
          rw [hconcat, eraseDups_concat]
          split
          · exact hold
          · next hnew =>
              have hplace : xs.length ≤ firstPlace f (xs ++ [x]) y := by
                rw [firstPlace_append, if_neg fun h => hnew (List.mem_filterMap.2 (firstPlace_lt_length.1 h))]
                exact Nat.le_add_left _ _
              refine List.pairwise_append.2 ⟨hold, List.pairwise_singleton _ _, fun y' hy' later hlater => ?_⟩
              obtain ⟨hkept, hlt⟩ := hfound y' hy'
              rw [List.mem_singleton.1 hlater, hkept]
              exact Nat.lt_of_lt_of_le hlt hplace

theorem FoundInOrder.nodup (h : FoundInOrder f xs ys) : ys.Nodup :=
  h.sorted.imp fun {y later} (hlt : firstPlace f xs y < _) (heq : y = later) =>
    Nat.lt_irrefl _ (heq ▸ hlt)

/-- Only one list has these values in this order. -/
theorem FoundInOrder.unique (h : FoundInOrder f xs ys) (h' : FoundInOrder f xs ys') : ys = ys' := by
  have hperm : ys.Perm ys' :=
    (List.perm_ext_iff_of_nodup h.nodup h'.nodup).2 fun y => (h.mem y).trans (h'.mem y).symm
  exact hperm.eq_of_pairwise (fun y y' _ _ hlt hlt' => absurd hlt (Nat.lt_asymm hlt')) h.sorted h'.sorted

end

namespace Registry

/-! ## Names in registry order -/

/-- The names bound to an instance, in registry order. -/
def namesOf (r : Registry) (id : InstanceId) : List String :=
  r.entries.filterMap fun (name, bound) => if bound = id then some name else none

variable {r : Registry} {id : InstanceId} {name : String}

theorem namesOf_eq (r : Registry) (id : InstanceId) :
    r.namesOf id = (r.entries.filter fun entry => entry.2 = id).map (·.1) := by
  unfold namesOf
  induction r.entries with
  | nil => rfl
  | cons entry rest ih =>
      obtain ⟨name, bound⟩ := entry
      by_cases h : bound = id <;> simp [h, ih]

theorem mem_namesOf : name ∈ r.namesOf id ↔ (name, id) ∈ r.entries := by
  rw [namesOf_eq, List.mem_map]
  constructor
  · rintro ⟨entry, hentry, rfl⟩
    obtain ⟨hmem, hid⟩ := List.mem_filter.1 hentry
    obtain rfl : entry.2 = id := by simpa using hid
    exact hmem
  · intro hmem
    exact ⟨_, List.mem_filter.2 ⟨hmem, by simp⟩, rfl⟩

theorem mem_names_of_mem_namesOf (h : name ∈ r.namesOf id) : name ∈ r.entries.names :=
  List.mem_map.2 ⟨_, mem_namesOf.1 h, rfl⟩

theorem nodup_namesOf (h : r.entries.names.Nodup) (id : InstanceId) : (r.namesOf id).Nodup := by
  rw [namesOf_eq]
  exact h.sublist (List.filter_sublist.map _)

/-- Where names are distinct each of them is a name of one instance. -/
theorem eq_of_mem_namesOf (h : r.entries.names.Nodup) {id' : InstanceId} (hname : name ∈ r.namesOf id)
    (hname' : name ∈ r.namesOf id') : id = id' := by
  have hid := Table.get?_of_mem h (mem_namesOf.1 hname)
  have hid' := Table.get?_of_mem h (mem_namesOf.1 hname')
  exact Option.some.inj (hid.symm.trans hid')

/-- The names of an instance, as the resolver asks for them. -/
theorem reference?_eq (r : Registry) (id : InstanceId) :
    r.reference? id = match r.namesOf id with
      | [] => none
      | name :: aliases => some { name, aliases } := by
  rw [namesOf_eq]
  rfl

theorem names_of_reference? {reference : Reference} (h : r.reference? id = some reference) :
    reference.names = r.namesOf id := by
  rw [reference?_eq] at h
  split at h
  · cases h
  · next name aliases hnames =>
      cases h
      exact hnames.symm

theorem namesOf_named (r : Registry) (name : String) (id other : InstanceId) :
    (r.named name id).namesOf other
      = if id = other then r.namesOf other ++ [name] else r.namesOf other := by
  by_cases h : id = other <;> simp [namesOf, named, h]

/-! ## Groups of names -/

/-- A name joins the group of its instance, or opens one at the end if there is none. -/
theorem addToGroup_map {ids : List InstanceId} (hids : ids.Nodup) {names : InstanceId → List String}
    (hnew : id ∉ ids → names id = []) :
    addToGroup name id (ids.map fun other => (other, names other))
      = (if id ∈ ids then ids else ids ++ [id]).map fun other =>
          (other, if id = other then names other ++ [name] else names other) := by
  induction ids with
  | nil => simp [addToGroup, hnew]
  | cons first rest ih =>
      obtain ⟨hfirst, hrest⟩ := List.nodup_cons.1 hids
      by_cases heq : first = id
      · subst heq
        have hothers : ∀ other ∈ rest, first ≠ other := fun other hother hne => hfirst (hne ▸ hother)
        simp +contextual [addToGroup, hothers]
      · have hmem : id ∈ first :: rest ↔ id ∈ rest := by simp [Ne.symm heq]
        rw [List.map_cons, addToGroup, if_neg heq, ih hrest fun h => hnew (mt hmem.1 h)]
        by_cases hid : id ∈ rest <;> simp [hid, Ne.symm heq]

theorem groups_named (r : Registry) (name : String) (id : InstanceId) :
    (r.named name id).groups = addToGroup name id r.groups := by
  simp [groups, named]

/-- **The groups are the names of each instance that has any**, in the order of their first names. -/
theorem groups_eq (r : Registry) :
    r.groups = (r.entries.map (·.2)).eraseDups.map fun id => (id, r.namesOf id) := by
  obtain ⟨instances, entries⟩ := r
  induction entries using List.reverseRecOn with
  | nil => rfl
  | append_singleton entries entry ih =>
      obtain ⟨name, id⟩ := entry
      let r : Registry := { instances, entries }
      have hnew : id ∉ (r.entries.map (·.2)).eraseDups → r.namesOf id = [] := by
        intro hid
        refine List.eq_nil_iff_forall_not_mem.2 fun other hother => hid ?_
        exact List.mem_eraseDups.2 (List.mem_map.2 ⟨_, mem_namesOf.1 hother, rfl⟩)
      show (r.named name id).groups = ((r.entries ++ [(name, id)]).map (·.2)).eraseDups.map _
      rw [groups_named, ih, addToGroup_map (nodup_eraseDups _) hnew, List.map_append, List.map_singleton,
        eraseDups_concat]
      simp only [List.mem_eraseDups, ← namesOf_named]
      rfl

/-- The groups of aliases are the names of the instances that have several. -/
theorem mem_aliases {group : List String} :
    group ∈ r.aliases ↔ ∃ id, r.namesOf id = group ∧ 1 < group.length := by
  rw [aliases, groups_eq, List.map_map, List.mem_filter, List.mem_map]
  constructor
  · rintro ⟨⟨id, -, hgroup⟩, hlength⟩
    exact ⟨id, hgroup, by simpa using hlength⟩
  · rintro ⟨id, rfl, hlength⟩
    obtain ⟨name, hname⟩ := List.exists_mem_of_length_pos (Nat.lt_of_succ_lt hlength)
    have hid : id ∈ r.entries.map (·.2) := List.mem_map.2 ⟨_, mem_namesOf.1 hname, rfl⟩
    exact ⟨⟨id, List.mem_eraseDups.2 hid, rfl⟩, by simpa using hlength⟩

/-- There are no aliases where no instance has several names. -/
theorem aliases_eq_nil_iff : r.aliases = [] ↔ ∀ id, (r.namesOf id).length ≤ 1 := by
  rw [List.eq_nil_iff_forall_not_mem]
  constructor
  · intro h id
    exact Nat.le_of_not_lt fun hlength => h _ (mem_aliases.2 ⟨id, rfl, hlength⟩)
  · intro h group hgroup
    obtain ⟨id, rfl, hlength⟩ := mem_aliases.1 hgroup
    exact absurd (h id) (Nat.not_le_of_lt hlength)

end Registry

end SchemaTyping
