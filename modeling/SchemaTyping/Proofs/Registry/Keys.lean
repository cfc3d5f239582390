import Mathlib.Data.List.Infix
import Mathlib.Data.List.TakeWhile
import SchemaTyping.Proofs.Table
import SchemaTyping.Registry.Definition

set_option autoImplicit false

/-! # Keys as paths

A key that `Definition.childKeys` finds is a single segment: it is not empty, has no point in it and is not
the wildcard. Below the root a key is a path as it stands, and such a path is cut into the root and the
key again. Any path is cut at its last point, and joining the parts gives it back unless its only point
stands in front (`Path.join_parentAndKey`).

Every declared path counts for at most one key below a parent (`Path.keyBelow?`), and for that key exactly when
it lies at or below the parent joined with the key. So a key counts as soon as anything below it is declared,
and need not be declared itself (`Definition.mem_childKeys_iff`). It is where a definition declares every path
above a declared one (`Definition.declared_of_mem_childKeys`). -/

namespace SchemaTyping

namespace Path

theorem point_not_mem_firstSegment (cs : List Char) : '.' ∉ (firstSegment cs).toList := by
  intro h
  rw [firstSegment, String.toList_ofList] at h
  simpa using List.mem_takeWhile_imp h

theorem ne_point_of_mem_reverse {cs : List Char} (h : '.' ∉ cs) :
    ∀ c ∈ cs.reverse, decide (c ≠ '.') = true := by
  intro c hc
  have hmem := List.mem_reverse.1 hc
  exact decide_eq_true fun hpoint => h (hpoint ▸ hmem)

theorem parentAndKey_of_point_not_mem {key : String} (h : '.' ∉ key.toList) :
    parentAndKey key = ("", key) := by
  have hall := ne_point_of_mem_reverse h
  simp only [parentAndKey]
  rw [List.takeWhile_eq_self_iff.2 hall, List.dropWhile_eq_nil_iff.2 hall, List.reverse_reverse,
    String.ofList_toList]
  rfl

/-! ## Last segments -/

/-- The key is what stands behind the last point of the path, or the whole path if it has no point. -/
def LastSegment (path key : String) : Prop :=
  '.' ∉ key.toList ∧ (path = key ∨ ∃ parent : String, path.toList = parent.toList ++ '.' :: key.toList)

/-- The only point of the path is its first character. -/
def LedByPoint (path : String) : Prop := ∃ key : String, '.' ∉ key.toList ∧ path.toList = '.' :: key.toList

/-- A path with a point is cut at the last one. -/
theorem parentAndKey_of_last_point {path parent key : String} (hkey : '.' ∉ key.toList)
    (hpath : path.toList = parent.toList ++ '.' :: key.toList) : parentAndKey path = (parent, key) := by
  have hall := ne_point_of_mem_reverse hkey
  have hreverse : path.toList.reverse = key.toList.reverse ++ '.' :: parent.toList.reverse := by
    rw [hpath]
    simp
  simp only [parentAndKey, hreverse]
  rw [List.takeWhile_append_of_pos hall, List.dropWhile_append_of_pos hall]
  simp

/-- A path is cut into its last segment and the path above it. -/
theorem parentAndKey_cases (path : String) :
    ('.' ∉ path.toList ∧ parentAndKey path = ("", path)) ∨
      ∃ parent key : String, '.' ∉ key.toList ∧ path.toList = parent.toList ++ '.' :: key.toList ∧
        parentAndKey path = (parent, key) := by
  by_cases hpoint : '.' ∈ path.toList
  · -- the first point of the reversed path is the last one of the path
    obtain ⟨key, parent, hcut, hkey⟩ := List.eq_append_cons_of_mem (List.mem_reverse.2 hpoint)
    have hpath : path.toList = (String.ofList parent.reverse).toList ++ '.' ::
        (String.ofList key.reverse).toList := by
      rw [← List.reverse_reverse path.toList, hcut]
      simp
    have hlast : '.' ∉ (String.ofList key.reverse).toList := by simpa using hkey
    exact Or.inr ⟨_, _, hlast, hpath, parentAndKey_of_last_point hlast hpath⟩
  · exact Or.inl ⟨hpoint, parentAndKey_of_point_not_mem hpoint⟩

theorem lastSegment_parentAndKey (path : String) : LastSegment path (parentAndKey path).2 := by
  rcases parentAndKey_cases path with ⟨hpoint, hcut⟩ | ⟨parent, key, hkey, hpath, hcut⟩
  · rw [hcut]
    exact ⟨hpoint, Or.inl rfl⟩
  · rw [hcut]
    exact ⟨hkey, Or.inr ⟨parent, hpath⟩⟩

/-! ## Joined paths -/

theorem toList_join {parent : String} (h : parent ≠ "") (key : String) :
    (join parent key).toList = parent.toList ++ '.' :: key.toList := by
  rw [join, if_neg (by simpa using h), String.toList_ofList]

/-- Cutting a path and joining its parts gives the path back, unless its only point stands in front. -/
theorem join_parentAndKey {path : String} (h : ¬ LedByPoint path) :
    join (parentAndKey path).1 (parentAndKey path).2 = path := by
  rcases parentAndKey_cases path with ⟨-, hcut⟩ | ⟨parent, key, hkey, hpath, hcut⟩
  · rw [hcut]
    rfl
  · have hparent : parent ≠ "" := by
      rintro rfl
      exact h ⟨key, hkey, by simpa using hpath⟩
    rw [hcut, ← String.toList_inj, toList_join hparent, hpath]

/-- The point in front of a path that has no other is lost. -/
theorem join_parentAndKey_of_ledByPoint {path : String} (h : LedByPoint path) :
    join (parentAndKey path).1 (parentAndKey path).2 = (parentAndKey path).2 := by
  obtain ⟨key, hkey, hpath⟩ := h
  have hcut : parentAndKey path = ("", key) := parentAndKey_of_last_point hkey (by simpa using hpath)
  rw [hcut]
  rfl

theorem join_eq_empty_iff {parent key : String} : join parent key = "" ↔ parent = "" ∧ key = "" := by
  by_cases hparent : parent = ""
  · subst hparent
    simp [join]
  · refine iff_of_false (fun h => ?_) fun h => hparent h.1
    have hlist := congrArg String.toList h
    simp [toList_join hparent] at hlist

theorem join_ne_empty {parent key : String} (h : key ≠ "") : join parent key ≠ "" :=
  fun hempty => h (join_eq_empty_iff.1 hempty).2

theorem join_join {parent key : String} (hkey : key ≠ "") (rest : String) :
    join (join parent key) rest = join parent (join key rest) := by
  by_cases hparent : parent = ""
  · subst hparent
    rfl
  · have hjoin : join parent key ≠ "" := join_ne_empty hkey
    simp [← String.toList_inj, toList_join, hparent, hkey, hjoin]

/-- What lies below a path is joined to it. -/
theorem below?_eq_some_iff {parent path : String} {cs : List Char} :
    below? parent path = some cs ↔ path = join parent (String.ofList cs) := by
  by_cases hparent : parent = ""
  · subst hparent
    rw [← String.toList_inj]
    simp [below?, join]
  · rw [← String.toList_inj, toList_join hparent, String.toList_ofList, below?,
      if_neg (by simpa using hparent)]
    constructor
    · intro h
      split at h
      · next rest hrest =>
          cases h
          exact (List.append_eq_of_isPrefixOf?_eq_some hrest).symm
      · cases h
    · intro h
      simp [List.isPrefixOf?_eq_some_iff_append_eq.2 h.symm]

/-! ## First segments -/

theorem firstSegment_of_point_not_mem {cs : List Char} (h : '.' ∉ cs) :
    firstSegment cs = String.ofList cs := by
  rw [firstSegment, List.takeWhile_eq_self_iff.2]
  intro c hc
  exact decide_eq_true fun hpoint => h (hpoint ▸ hc)

/-- What stands behind a point does not belong to the first segment. -/
theorem firstSegment_append (cs rest : List Char) : firstSegment (cs ++ '.' :: rest) = firstSegment cs := by
  induction cs with
  | nil => rfl
  | cons c cs ih =>
      simp only [firstSegment, String.ofList_inj] at ih ⊢
      rw [List.cons_append, List.takeWhile_cons, List.takeWhile_cons, ih]

/-- A path is its first segment or lies below it. -/
theorem firstSegment_or_below {cs : List Char} (h : firstSegment cs ≠ "") :
    String.ofList cs = firstSegment cs ∨ ∃ rest, String.ofList cs = join (firstSegment cs) rest := by
  have hcut := List.takeWhile_append_dropWhile (p := (· ≠ '.')) (l := cs)
  cases hdrop : cs.dropWhile (· ≠ '.') with
  | nil =>
      rw [hdrop, List.append_nil] at hcut
      exact Or.inl (congrArg String.ofList hcut.symm)
  | cons point rest =>
      have hpoint : point = '.' := by
        have hhead := List.head?_dropWhile_not (· ≠ '.') cs
        rw [hdrop] at hhead
        simpa using hhead
      rw [hdrop, hpoint] at hcut
      refine Or.inr ⟨String.ofList rest, ?_⟩
      rw [← String.toList_inj, toList_join h, String.toList_ofList, String.toList_ofList,
        firstSegment, String.toList_ofList]
      exact hcut.symm

/-! ## Paths at and below a path -/

/-- Is the second path the first one, or does it start with the first one and a point? -/
def atOrBelow (path other : String) : Bool :=
  other = path || (path.toList ++ ['.']).isPrefixOf other.toList

variable {path inner other parent key wildcard : String}

theorem atOrBelow_iff :
    atOrBelow path other = true ↔ other = path ∨ ∃ cs, other.toList = path.toList ++ '.' :: cs := by
  simp only [atOrBelow, Bool.or_eq_true, decide_eq_true_eq, List.isPrefixOf_iff_prefix]
  refine or_congr_right ⟨fun ⟨cs, hcs⟩ => ⟨cs, ?_⟩, fun ⟨cs, hcs⟩ => ⟨cs, ?_⟩⟩
  · simp [← hcs]
  · simp [hcs]

theorem atOrBelow_self (path : String) : atOrBelow path path = true := atOrBelow_iff.2 (Or.inl rfl)

theorem atOrBelow_trans (h : atOrBelow path inner = true) (h' : atOrBelow inner other = true) :
    atOrBelow path other = true := by
  rw [atOrBelow_iff] at *
  rcases h' with rfl | ⟨cs', hcs'⟩
  · exact h
  rcases h with rfl | ⟨cs, hcs⟩
  · exact Or.inr ⟨cs', hcs'⟩
  · exact Or.inr ⟨cs ++ '.' :: cs', by simp [hcs', hcs]⟩

theorem atOrBelow_join (h : parent ≠ "") (key : String) : atOrBelow parent (join parent key) = true :=
  atOrBelow_iff.2 (Or.inr ⟨key.toList, toList_join h key⟩)

/-- What is below a path is at or below it; at the path itself there is nothing below. -/
theorem atOrBelow_of_below? (h : parent ≠ "") {cs : List Char} (hcs : below? parent other = some cs) :
    atOrBelow parent other = true := by
  rw [below?_eq_some_iff.1 hcs]
  exact atOrBelow_join h _

/-- Only the root is above the root. -/
theorem ne_empty_of_atOrBelow (hpath : path ≠ "") (h : atOrBelow path inner = true) : inner ≠ "" := by
  rcases atOrBelow_iff.1 h with rfl | ⟨cs, hcs⟩
  · exact hpath
  · rintro rfl
    simp at hcs

/-- The paths below a path other than the root are those that are joined to it. -/
theorem atOrBelow_iff_join (h : path ≠ "") :
    atOrBelow path inner = true ↔ inner = path ∨ ∃ rest, inner = join path rest := by
  refine atOrBelow_iff.trans (or_congr_right ⟨fun ⟨cs, hcs⟩ => ⟨String.ofList cs, ?_⟩, ?_⟩)
  · rw [← String.toList_inj, toList_join h, String.toList_ofList, hcs]
  · rintro ⟨rest, rfl⟩
    exact ⟨rest.toList, toList_join h rest⟩

/-! ## The key of a path -/

/-- The first segment behind a parent is the key of all that lies at or below it. -/
theorem map_firstSegment_below?_iff (hkey : key ≠ "") :
    (below? parent path).map firstSegment = some key ↔
      '.' ∉ key.toList ∧ atOrBelow (join parent key) path = true := by
  have hjoin : join parent key ≠ "" := join_ne_empty hkey
  rw [Option.map_eq_some_iff]
  constructor
  · rintro ⟨cs, hcs, rfl⟩
    refine ⟨point_not_mem_firstSegment cs, ?_⟩
    rw [below?_eq_some_iff.1 hcs]
    rcases firstSegment_or_below hkey with hwhole | ⟨rest, hrest⟩
    · rw [hwhole]
      exact atOrBelow_self _
    · rw [hrest, ← join_join hkey]
      exact atOrBelow_join hjoin rest
  · rintro ⟨hpoint, hbelow⟩
    have hfirst : firstSegment key.toList = key := by
      rw [firstSegment_of_point_not_mem hpoint, String.ofList_toList]
    rcases (atOrBelow_iff_join hjoin).1 hbelow with rfl | ⟨rest, rfl⟩
    · exact ⟨key.toList, below?_eq_some_iff.2 (by rw [String.ofList_toList]), hfirst⟩
    · refine ⟨(join key rest).toList, below?_eq_some_iff.2 ?_, ?_⟩
      · rw [String.ofList_toList, join_join hkey]
      · rw [toList_join hkey, firstSegment_append, hfirst]

/-- The key that a path counts for below a parent. -/
def keyBelow? (parent wildcard path : String) : Option String :=
  ((below? parent path).map firstSegment).filter fun key => !key.isEmpty && key != wildcard

theorem keyBelow?_eq_some_iff : keyBelow? parent wildcard path = some key ↔
    key ≠ "" ∧ '.' ∉ key.toList ∧ key ≠ wildcard ∧ atOrBelow (join parent key) path = true := by
  rw [keyBelow?, Option.filter_eq_some_iff]
  simp only [Bool.and_eq_true, Bool.not_eq_true', String.isEmpty_eq_false_iff, bne_iff_ne]
  constructor
  · rintro ⟨hfirst, hkey, hwildcard⟩
    obtain ⟨hpoint, hbelow⟩ := (map_firstSegment_below?_iff hkey).1 hfirst
    exact ⟨hkey, hpoint, hwildcard, hbelow⟩
  · rintro ⟨hkey, hpoint, hwildcard, hbelow⟩
    exact ⟨(map_firstSegment_below?_iff hkey).2 ⟨hpoint, hbelow⟩, hkey, hwildcard⟩

end Path

namespace Definition

variable {d : Definition} {parent wildcard key : String}

theorem childKeys_eq (d : Definition) (parent wildcard : String) : d.childKeys parent wildcard
    = (d.rules.names.filterMap (Path.keyBelow? parent wildcard)).eraseDups := by
  simp only [childKeys, List.filter_filterMap]
  rfl

/-- The keys below a path are its children: what can be a key and has something declared at or below it. -/
theorem mem_childKeys_iff : key ∈ d.childKeys parent wildcard ↔
    key ≠ "" ∧ '.' ∉ key.toList ∧ key ≠ wildcard ∧
      ∃ path ∈ d.rules.names, Path.atOrBelow (Path.join parent key) path = true := by
  rw [childKeys_eq, List.mem_eraseDups, List.mem_filterMap]
  simp only [Path.keyBelow?_eq_some_iff]
  constructor
  · rintro ⟨path, hpath, hkey, hpoint, hwildcard, hbelow⟩
    exact ⟨hkey, hpoint, hwildcard, path, hpath, hbelow⟩
  · rintro ⟨hkey, hpoint, hwildcard, path, hpath, hbelow⟩
    exact ⟨path, hpath, hkey, hpoint, hwildcard, hbelow⟩

theorem mem_childKeys (h : key ∈ d.childKeys parent wildcard) :
    key ≠ "" ∧ key ≠ wildcard ∧ '.' ∉ key.toList := by
  obtain ⟨hkey, hpoint, hwildcard, -⟩ := mem_childKeys_iff.1 h
  exact ⟨hkey, hwildcard, hpoint⟩

end Definition

/-! ## Declared keys -/

/-- The paths above a path, without the root. -/
def Path.above (path : String) : List String :=
  ((List.range path.toList.length).filter fun n => n ≠ 0 ∧ path.toList[n]? = some '.').map fun n =>
    String.ofList (path.toList.take n)

theorem Path.mem_above_iff {parent path : String} :
    parent ∈ above path ↔ parent ≠ "" ∧ ∃ rest, path = join parent rest := by
  simp only [above, List.mem_map, List.mem_filter, List.mem_range, decide_eq_true_eq]
  constructor
  · rintro ⟨n, ⟨hn, hpos, hpoint⟩, rfl⟩
    have hparent : String.ofList (path.toList.take n) ≠ "" := by
      intro hempty
      have hlength := congrArg (fun s => s.toList.length) hempty
      simp only [String.toList_ofList, List.length_take, String.toList_empty, List.length_nil] at hlength
      omega
    refine ⟨hparent, String.ofList (path.toList.drop (n + 1)), ?_⟩
    rw [← String.toList_inj, toList_join hparent, String.toList_ofList, String.toList_ofList]
    obtain ⟨hn, hget⟩ := List.getElem?_eq_some_iff.1 hpoint
    rw [← hget, ← List.drop_eq_getElem_cons, List.take_append_drop]
  · rintro ⟨hparent, rest, rfl⟩
    refine ⟨parent.toList.length, ?_, ?_⟩
    · rw [toList_join hparent]
      simp [hparent]
    · rw [toList_join hparent, List.take_left, String.ofList_toList]

namespace Definition

variable {d : Definition} {wildcard : String}

/-- With a path, every path above it is declared. The root is not, as a rule. -/
def ParentClosed (d : Definition) : Prop :=
  ∀ parent rest : String, parent ≠ "" → d.rule? (Path.join parent rest) ≠ none →
    d.rule? parent ≠ none

theorem parentClosed_iff :
    d.ParentClosed ↔ ∀ path ∈ d.rules.names, ∀ parent ∈ Path.above path, d.rule? parent ≠ none := by
  have hdeclared (path : String) : d.rule? path ≠ none ↔ path ∈ d.rules.names := by
    rw [ne_eq, rule?, Table.get?_eq_none_iff, not_not]
  constructor
  · intro h path hpath parent habove
    obtain ⟨hparent, rest, rfl⟩ := Path.mem_above_iff.1 habove
    exact h parent rest hparent ((hdeclared _).2 hpath)
  · intro h parent rest hparent hpath
    exact h _ ((hdeclared _).1 hpath) parent (Path.mem_above_iff.2 ⟨hparent, rest, rfl⟩)

instance : Decidable d.ParentClosed := decidable_of_iff' _ parentClosed_iff

theorem declared_of_mem_childKeys (hd : d.ParentClosed) {parent key : String}
    (h : key ∈ d.childKeys parent wildcard) : d.rule? (Path.join parent key) ≠ none := by
  obtain ⟨hkey, -, -, path, hpath, hbelow⟩ := mem_childKeys_iff.1 h
  have hjoin : Path.join parent key ≠ "" := Path.join_ne_empty hkey
  have hdeclared : d.rule? path ≠ none := fun hnone => Table.get?_eq_none_iff.1 hnone hpath
  rcases (Path.atOrBelow_iff_join hjoin).1 hbelow with rfl | ⟨rest, rfl⟩
  · exact hdeclared
  · exact hd _ rest hjoin hdeclared

end Definition

end SchemaTyping
