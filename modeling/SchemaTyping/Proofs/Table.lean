import SchemaTyping.Table

set_option autoImplicit false

/-! # Laws of tables

What storing does to the entries and the names of a table, and how tables behave when all their values
are replaced. Two names are never stored twice: a table that grows by `insert` alone has distinct names,
and a new name goes to the end. -/

namespace SchemaTyping.Table

variable {α β : Type}

/-! ## Looking up -/

theorem mem_of_get?_eq_some {name : String} {value : α} {t : Table α}
    (h : t.get? name = some value) : (name, value) ∈ t := by
  induction t with
  | nil => cases h
  | cons entry rest ih =>
      obtain ⟨n, v⟩ := entry
      by_cases hn : n = name
      · simp only [get?, if_pos hn, Option.some.injEq] at h
        rw [hn, h]
        exact List.mem_cons_self
      · simp only [get?, if_neg hn] at h
        exact List.mem_cons_of_mem _ (ih h)

theorem get?_eq_none_iff {name : String} {t : Table α} : t.get? name = none ↔ name ∉ t.names := by
  induction t with
  | nil => simp [get?, names]
  | cons entry rest ih =>
      obtain ⟨n, v⟩ := entry
      by_cases hn : n = name
      · simp [get?, names, hn]
      · simp only [names] at ih
        simp [get?, names, hn, ih, Ne.symm hn]

theorem has_eq_false_iff {name : String} {t : Table α} : t.has name = false ↔ name ∉ t.names := by
  rw [← get?_eq_none_iff, has, Option.isSome_eq_false_iff, Option.isNone_iff_eq_none]

theorem has_iff {name : String} {t : Table α} : t.has name = true ↔ name ∈ t.names := by
  rw [← Bool.not_eq_false, has_eq_false_iff, Decidable.not_not]

theorem get?_append (name : String) (t u : Table α) :
    (t ++ u : Table α).get? name = (t.get? name).or (u.get? name) := by
  induction t with
  | nil => rfl
  | cons entry rest ih =>
      obtain ⟨n, v⟩ := entry
      by_cases hn : n = name
      · simp [get?, hn]
      · simpa [get?, hn] using ih

/-- What is found in a table is found in a longer one. -/
theorem get?_of_prefix {t u : Table α} (h : t <+: u) {name : String} {value : α}
    (hname : t.get? name = some value) : u.get? name = some value := by
  obtain ⟨further, hfurther⟩ := h
  rw [← hfurther, get?_append, hname]
  rfl

/-- In a table with distinct names every value is found. -/
theorem get?_of_mem {name : String} {value : α} {t : Table α} (ht : t.names.Nodup)
    (h : (name, value) ∈ t) : t.get? name = some value := by
  induction t with
  | nil => cases h
  | cons entry rest ih =>
      obtain ⟨n, v⟩ := entry
      obtain ⟨hname, hrest⟩ := List.nodup_cons.1 ht
      rcases List.mem_cons.1 h with heq | hmem
      · cases heq
        exact if_pos rfl
      · have hne : n ≠ name := fun hn => hname (hn ▸ List.mem_map.2 ⟨_, hmem, rfl⟩)
        rw [get?, if_neg hne]
        exact ih hrest hmem

theorem get?_eq_some_iff {name : String} {value : α} {t : Table α} (ht : t.names.Nodup) :
    t.get? name = some value ↔ (name, value) ∈ t :=
  ⟨mem_of_get?_eq_some, get?_of_mem ht⟩

/-- Looking up does not depend on the order of distinct names. -/
theorem get?_perm {t u : Table α} (h : t.Perm u) (ht : t.names.Nodup) (name : String) :
    t.get? name = u.get? name := by
  have hu : u.names.Nodup := (h.map _).nodup_iff.1 ht
  refine Option.ext fun value => ?_
  rw [get?_eq_some_iff ht, get?_eq_some_iff hu, h.mem_iff]

theorem names_append (t u : Table α) : (t ++ u : Table α).names = t.names ++ u.names :=
  List.map_append

/-- Looking up a name that a filter keeps. -/
theorem get?_filter {name : String} {p : String → Bool} (hname : p name = true)
    (t : Table α) : get? name (t.filter fun entry => p entry.1) = t.get? name := by
  induction t with
  | nil => rfl
  | cons entry rest ih =>
      obtain ⟨n, v⟩ := entry
      by_cases hn : n = name
      · subst hn
        simp [hname, get?]
      · by_cases hp : p n = true
        · simp [hp, get?, hn, ih]
        · simp [hp, get?, hn, ih]

/-! ## Tables from names -/

/-- The table that has a value for each of these names. -/
def ofNames (names : List String) (f : String → α) : Table α := names.map fun name => (name, f name)

theorem get?_ofNames (name : String) (names : List String) (f : String → α) :
    (ofNames names f).get? name = if name ∈ names then some (f name) else none := by
  induction names with
  | nil => rfl
  | cons other rest ih =>
      by_cases hother : other = name
      · simp [ofNames, get?, hother]
      · rw [ofNames] at ih
        simp [ofNames, get?, hother, ih, Ne.symm hother]

/-- A table with distinct names is given by what it has under them. -/
theorem eq_ofNames {t : Table α} (ht : t.names.Nodup) (fallback : α) :
    t = ofNames t.names fun name => (t.get? name).getD fallback := by
  rw [ofNames, names, List.map_map]
  refine (List.map_id t).symm.trans (List.map_congr_left fun entry hentry => ?_)
  simp [get?_of_mem ht hentry]

/-! ## Storing -/

theorem mem_of_mem_insert {name : String} {value : α} {t : Table α} {entry : String × α}
    (h : entry ∈ t.insert name value) : entry = (name, value) ∨ entry ∈ t := by
  induction t with
  | nil => exact Or.inl (List.mem_singleton.1 h)
  | cons first rest ih =>
      obtain ⟨n, v⟩ := first
      by_cases hn : n = name
      · simp only [insert, if_pos hn, List.mem_cons] at h
        exact h.imp_right fun hrest => List.mem_cons_of_mem _ hrest
      · simp only [insert, if_neg hn, List.mem_cons] at h
        rcases h with rfl | h
        · exact Or.inr List.mem_cons_self
        · exact (ih h).imp_right fun hrest => List.mem_cons_of_mem _ hrest

theorem insert_eq_append {name : String} {t : Table α} (value : α) (h : name ∉ t.names) :
    t.insert name value = t ++ [(name, value)] := by
  induction t with
  | nil => rfl
  | cons entry rest ih =>
      obtain ⟨n, v⟩ := entry
      simp only [names, List.map_cons, List.mem_cons, not_or] at h
      obtain ⟨hne, hrest⟩ := h
      rw [insert, if_neg (Ne.symm hne), ih hrest, List.cons_append]

theorem nodup_names_insert {t : Table α} (name : String) (value : α) (h : t.names.Nodup) :
    (t.insert name value).names.Nodup := by
  rw [names_insert]
  split
  · exact h
  · next hname =>
      exact List.nodup_append.2 ⟨h, by simp, fun a ha b hb hab => by
        rw [List.mem_singleton.1 hb] at hab
        exact hname (hab ▸ ha)⟩

/-- Storing entries with new names one after the other puts them all at the end. -/
theorem foldl_insert_eq_append (new t : Table α) (hnew : new.names.Nodup)
    (hdisjoint : ∀ name ∈ new.names, name ∉ t.names) :
    new.foldl (fun t (name, value) => t.insert name value) t = t ++ new := by
  induction new generalizing t with
  | nil => simp
  | cons entry rest ih =>
      obtain ⟨name, value⟩ := entry
      obtain ⟨hname, hrest⟩ := List.nodup_cons.1 hnew
      have hinsert := insert_eq_append value (hdisjoint name List.mem_cons_self)
      have hothers : ∀ other ∈ names rest, other ∉ (t ++ [(name, value)] : Table α).names := by
        intro other hother
        rw [names_append, List.mem_append, not_or]
        refine ⟨hdisjoint other (List.mem_cons_of_mem _ hother), ?_⟩
        intro heq
        obtain rfl : other = name := by simpa [names] using heq
        exact hname hother
      rw [List.foldl_cons]
      show rest.foldl _ (t.insert name value) = _
      rw [hinsert, ih _ hrest hothers, List.append_assoc, List.singleton_append]

theorem mem_names_foldl_insert {new t : Table α} {name : String} :
    name ∈ names (new.foldl (fun t (name, value) => t.insert name value) t) ↔
      name ∈ t.names ∨ name ∈ new.names := by
  induction new generalizing t with
  | nil => simp [names]
  | cons first rest ih =>
      obtain ⟨key, value⟩ := first
      have hinsert : name ∈ names (t.insert key value) ↔ name ∈ t.names ∨ name = key := by
        rw [names_insert]
        split
        · next hkey => exact ⟨Or.inl, fun h => h.elim id fun heq => heq ▸ hkey⟩
        · rw [List.mem_append, List.mem_singleton]
      have hnames : names ((key, value) :: rest) = key :: names rest := rfl
      rw [List.foldl_cons, ih, hinsert, hnames, List.mem_cons, or_assoc]

/-- What holds of all entries still does when entries it holds of are stored. -/
theorem forall_mem_foldl_insert {P : String × α → Prop} {new t : Table α}
    (hnew : ∀ entry ∈ new, P entry) (ht : ∀ entry ∈ t, P entry) :
    ∀ entry ∈ new.foldl (fun t (name, value) => t.insert name value) t, P entry := by
  induction new generalizing t with
  | nil => exact ht
  | cons first rest ih =>
      obtain ⟨name, value⟩ := first
      obtain ⟨hfirst, hrest⟩ := List.forall_mem_cons.1 hnew
      refine ih hrest fun entry hentry => ?_
      rcases mem_of_mem_insert hentry with rfl | hold
      · exact hfirst
      · exact ht entry hold

/-! ## Replacing all values -/

/-- A table with every value replaced. -/
def mapValues (f : α → β) (t : Table α) : Table β := t.map fun (name, value) => (name, f value)

theorem mapValues_cons (f : α → β) (name : String) (value : α) (t : Table α) :
    mapValues f ((name, value) :: t) = (name, f value) :: mapValues f t := rfl

theorem mapValues_append (f : α → β) (t u : Table α) :
    (t ++ u : Table α).mapValues f = t.mapValues f ++ u.mapValues f := List.map_append

theorem mapValues_congr {f g : α → β} {t : Table α} (h : ∀ entry ∈ t, f entry.2 = g entry.2) :
    t.mapValues f = t.mapValues g :=
  List.map_congr_left fun entry hentry => congrArg (Prod.mk entry.1) (h entry hentry)

theorem mapValues_eq_self {f : α → α} {t : Table α} (h : ∀ entry ∈ t, f entry.2 = entry.2) :
    t.mapValues f = t := (mapValues_congr (g := id) h).trans (List.map_id t)

@[simp] theorem mapValues_id (t : Table α) : t.mapValues id = t := mapValues_eq_self fun _ _ => rfl

theorem mapValues_mapValues {γ : Type} (f : α → β) (g : β → γ) (t : Table α) :
    (t.mapValues f).mapValues g = t.mapValues (g ∘ f) := by
  simp [mapValues, Function.comp_def]

theorem mapValues_ofNames (f : α → β) (names : List String) (g : String → α) :
    (ofNames names g).mapValues f = ofNames names (f ∘ g) := by
  simp [mapValues, ofNames, Function.comp_def]

theorem names_mapValues (f : α → β) (t : Table α) : (t.mapValues f).names = t.names := by
  simp [names, mapValues, Function.comp_def]

theorem get?_mapValues (f : α → β) (name : String) (t : Table α) :
    (t.mapValues f).get? name = (t.get? name).map f := by
  induction t with
  | nil => rfl
  | cons entry rest ih =>
      obtain ⟨n, v⟩ := entry
      simp only [mapValues] at ih
      simp only [mapValues, List.map_cons, get?, ih]
      by_cases hn : n = name <;> simp [hn]

theorem has_mapValues (f : α → β) (name : String) (t : Table α) :
    (t.mapValues f).has name = t.has name := by
  rw [has, has, get?_mapValues, Option.isSome_map]

theorem insert_mapValues (f : α → β) (name : String) (value : α) (t : Table α) :
    (t.mapValues f).insert name (f value) = (t.insert name value).mapValues f := by
  induction t with
  | nil => rfl
  | cons entry rest ih =>
      obtain ⟨n, v⟩ := entry
      simp only [mapValues] at ih
      simp only [mapValues, List.map_cons, insert]
      by_cases hn : n = name <;> simp [hn, ih]

theorem foldl_insert_mapValues (f : α → β) (new t : Table α) :
    (new.mapValues f).foldl (fun t (name, value) => t.insert name value) (t.mapValues f)
      = (new.foldl (fun t (name, value) => t.insert name value) t).mapValues f := by
  induction new generalizing t with
  | nil => rfl
  | cons entry rest ih =>
      obtain ⟨name, value⟩ := entry
      show (mapValues f rest).foldl _ ((t.mapValues f).insert name (f value)) = _
      rw [insert_mapValues, ih]
      rfl

end SchemaTyping.Table
