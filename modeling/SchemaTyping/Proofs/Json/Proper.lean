import SchemaTyping.Json.Record
import SchemaTyping.Proofs.Outcome
import SchemaTyping.Proofs.Table

set_option autoImplicit false

/-! # What reading JSON gives

The values that stand for JSON are those whose objects name no member twice and whose integers fit 64
bits (`Json.Proper`); every value that is read from a text is one of them. `Reader.Yields` states a
property of whatever a reader may return, and is proved for each way to put readers together. A number comes
from a numeral that is kept as an integer or rounded (`Number.IsRead`). -/

namespace SchemaTyping.Json

/-- The integers that a number keeps as such fit 64 bits, with or without a sign. -/
def Number.Proper : Number → Prop
  | .integer i => -(1 <<< 63 : Nat) ≤ i ∧ i < (1 <<< 64 : Nat)
  | _ => True

/-- No object names a member twice, and integers fit 64 bits. -/
inductive Proper : Json → Prop where
  | null : Proper .null
  | boolean (b : Bool) : Proper (.boolean b)
  | number {n : Number} (h : n.Proper) : Proper (.number n)
  | text (s : String) : Proper (.text s)
  | list {items : List Json} (h : ∀ item ∈ items, Proper item) : Proper (.list items)
  | object {members : List (String × Json)} (hnames : (Table.names members).Nodup)
      (h : ∀ member ∈ members, Proper member.2) : Proper (.object members)

@[simp] theorem proper_text (s : String) : Proper (.text s) := .text s

@[simp] theorem proper_list_iff {items : List Json} :
    Proper (.list items) ↔ ∀ item ∈ items, item.Proper := by
  refine ⟨fun h => ?_, .list⟩
  cases h with
  | list hitems => exact hitems

@[simp] theorem proper_object_iff {members : List (String × Json)} :
    Proper (.object members) ↔ (Table.names members).Nodup ∧ ∀ member ∈ members, member.2.Proper := by
  refine ⟨fun h => ?_, fun h => .object h.1 h.2⟩
  cases h with
  | object hnames hmembers => exact ⟨hnames, hmembers⟩

/-- The names are distinct and the values are all good. -/
structure GoodTable {α : Type} (good : α → Prop) (t : Table α) : Prop where
  names : t.names.Nodup
  values : ∀ entry ∈ t, good entry.2

theorem GoodTable.nil {α : Type} (good : α → Prop) : GoodTable good [] :=
  ⟨List.nodup_nil, fun _ h => absurd h List.not_mem_nil⟩

theorem GoodTable.insert {α : Type} {good : α → Prop} {t : Table α} (h : GoodTable good t)
    (name : String) {value : α} (hvalue : good value) : GoodTable good (t.insert name value) := by
  refine ⟨Table.nodup_names_insert name value h.names, fun entry hentry => ?_⟩
  rcases Table.mem_of_mem_insert hentry with rfl | hold
  · exact hvalue
  · exact h.values entry hold

/-! ## Readers -/

namespace Reader

variable {α β : Type}

/-- Whatever the reader returns is good. -/
def Yields (good : α → Prop) (m : Reader α) : Prop :=
  ∀ cs a rest, m cs = .ok (a, rest) → good a

variable {good : α → Prop} {goodAfter : β → Prop}

theorem yields_pure {a : α} (h : good a) : Yields good (pure a) := by
  intro cs b rest hrun
  cases hrun
  exact h

theorem yields_refuse (f : Fault) : Yields good (refuse f) := by
  intro cs a rest hrun
  cases hrun

theorem yields_true (m : Reader α) : Yields (fun _ => True) m := fun _ _ _ _ => trivial

theorem yields_bind {m : Reader α} {f : α → Reader β} (hm : Yields good m)
    (hf : ∀ a, good a → Yields goodAfter (f a)) : Yields goodAfter (m >>= f) := by
  intro cs b rest hrun
  cases hm' : m cs with
  | error p =>
      have : (m >>= f) cs = .error p := by simp only [bind, StateT.bind, hm']; rfl
      rw [this] at hrun
      cases hrun
  | ok result =>
      obtain ⟨a, cs'⟩ := result
      have : (m >>= f) cs = f a cs' := by simp only [bind, StateT.bind, hm']; rfl
      rw [this] at hrun
      exact hf a (hm cs a cs' hm') cs' b rest hrun

/-- What a part returns need not matter. -/
theorem yields_bind' {m : Reader α} {f : α → Reader β} (hf : ∀ a, Yields goodAfter (f a)) :
    Yields goodAfter (m >>= f) := yields_bind (yields_true m) fun a _ => hf a

theorem yields_under {m : Reader α} (s : Step) (hm : Yields good m) : Yields good (under s m) := by
  intro cs a rest hrun
  rw [under] at hrun
  cases hm' : m cs with
  | error p => rw [hm'] at hrun; cases hrun
  | ok result =>
      rw [hm'] at hrun
      cases hrun
      exact hm cs a rest hm'

theorem yields_scan {f : List Char → Except Malformed (α × List Char)}
    (h : ∀ cs a rest, f cs = .ok (a, rest) → good a) : Yields good (scan f) := by
  intro cs a rest hrun
  rw [scan] at hrun
  split at hrun
  · next hf => cases hrun; exact h cs a rest hf
  · cases hrun

end Reader

open Reader

/-! ## Lists and objects -/

theorem itemsFrom_yields {α : Type} {good : α → Prop} {item : Reader α} (hitem : Yields good item)
    (fuel i : Nat) : Yields (fun xs => ∀ x ∈ xs, good x) (itemsFrom item fuel i) := by
  induction fuel generalizing i with
  | zero => exact yields_refuse _
  | succ fuel ih =>
      rw [itemsFrom]
      refine yields_bind' fun more => ?_
      split
      · refine yields_bind (yields_under _ hitem) fun x hx => ?_
        refine yields_bind (ih (i + 1)) fun xs hxs => yields_pure ?_
        intro y hy
        rcases List.mem_cons.1 hy with rfl | hy
        · exact hx
        · exact hxs y hy
      · exact yields_bind' fun _ => yields_pure fun x hx => absurd hx List.not_mem_nil

/-- What each member keeps, all members keep. -/
theorem membersFrom_yields {σ : Type} {good : σ → Prop} {member : σ → String → Reader σ}
    (hmember : ∀ s key, good s → Yields good (member s key)) (fuel : Nat) (first : Bool) {s : σ}
    (hs : good s) : Yields good (membersFrom member fuel first s) := by
  induction fuel generalizing first s with
  | zero => exact yields_refuse _
  | succ fuel ih =>
      rw [membersFrom]
      refine yields_bind' fun key => ?_
      split
      · exact yields_bind (hmember s _ hs) fun s' hs' => ih false hs'
      · exact yields_bind' fun _ => yields_pure hs

theorem foldMembers_yields {σ : Type} {good : σ → Prop} {member : σ → String → Reader σ}
    (hmember : ∀ s key, good s → Yields good (member s key)) {s : σ} (hs : good s) :
    Yields good (foldMembers s member) :=
  yields_bind' fun _ => membersFrom_yields hmember _ _ hs

/-- A repeated key gets the later value; it is not there twice. -/
theorem tableOf_yields {α : Type} {good : α → Prop} {value : Reader α} (hvalue : Yields good value) :
    Yields (GoodTable good) (tableOf value) :=
  foldMembers_yields (fun _ key ht => yields_bind' fun _ =>
    yields_bind (yields_under _ hvalue) fun _ hv => yields_pure (ht.insert key hv)) (.nil good)

/-! ## Values -/

/-- The number is kept as an integer, or its numeral is rounded. -/
inductive Number.IsRead : Number → Prop where
  | kept {n : Number} {negative : Bool} {value : Nat} (h : keptInteger? negative value = some n) : IsRead n
  | rounded {n : Number} {negative : Bool} {digits : Nat} {exponent : Int}
      (h : realNumber negative digits exponent = .ok n) : IsRead n

theorem readScaled_isRead {negative : Bool} {digits places : Nat} {cs rest : List Char} {n : Number}
    (h : readScaled negative digits places cs = .ok (n, rest)) : n.IsRead := by
  have hscaled : ∀ (power : Int) (left : List Char),
      (do let m ← realNumber negative digits power; return (m, left)) = .ok (n, rest) → n.IsRead := by
    intro power left hrun
    obtain ⟨m, hm, hrun⟩ := Outcome.bind_eq_ok.1 hrun
    cases hrun
    exact .rounded hm
  unfold readScaled at h
  dsimp only at h
  split at h
  · split at h
    · obtain ⟨⟨power, left⟩, -, h⟩ := Outcome.bind_eq_ok.1 h
      exact hscaled _ _ h
    · exact hscaled _ _ h
  · exact hscaled _ _ h

theorem readTail_isRead {negative : Bool} {whole cs rest : List Char} {n : Number}
    (h : readTail negative whole cs = .ok (n, rest)) : n.IsRead := by
  unfold readTail at h
  split at h
  · dsimp only at h
    split at h
    · cases h
    · exact readScaled_isRead h
  · dsimp only at h
    split at h
    · next hkept => cases h; exact .kept hkept
    · exact readScaled_isRead h

theorem readNumber_isRead {negative : Bool} {cs rest : List Char} {n : Number}
    (h : readNumber negative cs = .ok (n, rest)) : n.IsRead := by
  unfold readNumber at h
  split at h
  · cases h
  · split at h
    · split at h
      · split at h
        · cases h
        · exact readTail_isRead h
      · exact readTail_isRead h
    · split at h
      · exact readTail_isRead h
      · cases h

/-- What is kept: a zero with a sign, or an integer of 64 bits. -/
theorem keptInteger?_eq_some {negative : Bool} {value : Nat} {n : Number}
    (h : keptInteger? negative value = some n) :
    (negative = true ∧ value = 0 ∧ n = .negativeZero) ∨
      (negative = true ∧ value ≤ 1 <<< 63 ∧ n = .integer (-value)) ∨
        (negative = false ∧ value < 1 <<< 64 ∧ n = .integer value) := by
  unfold keptInteger? at h
  cases negative with
  | true =>
      rw [if_pos rfl] at h
      split at h
      · next hzero => exact .inl ⟨rfl, hzero, (Option.some.inj h).symm⟩
      · split at h
        · next hle => exact .inr (.inl ⟨rfl, hle, (Option.some.inj h).symm⟩)
        · cases h
  | false =>
      rw [if_neg Bool.false_ne_true] at h
      split at h
      · next hlt => exact .inr (.inr ⟨rfl, hlt, (Option.some.inj h).symm⟩)
      · cases h

theorem keptInteger?_proper {negative : Bool} {value : Nat} {n : Number}
    (h : keptInteger? negative value = some n) : n.Proper := by
  rcases keptInteger?_eq_some h with ⟨-, -, rfl⟩ | ⟨-, hle, rfl⟩ | ⟨-, hlt, rfl⟩
  · trivial
  · simp only [Number.Proper]
    omega
  · simp only [Number.Proper]
    omega

theorem Number.IsRead.proper {n : Number} (h : n.IsRead) : n.Proper := by
  cases h with
  | kept h => exact keptInteger?_proper h
  | rounded h =>
      unfold realNumber at h
      split at h
      · cases h
        split <;> trivial
      · cases h

/-- What each kind of value is, whatever is read is: the parts of a list or an object are what `nested` gives. -/
theorem readerWith_yields {good goodPart : Json → Prop} {nested : Option (Reader Json)}
    (hnested : ∀ m, nested = some m → Yields goodPart m) (hnull : good .null)
    (hboolean : ∀ b, good (.boolean b)) (hnumber : ∀ n : Number, n.IsRead → good (.number n))
    (htext : ∀ s, good (.text s)) (hlist : ∀ items, (∀ item ∈ items, goodPart item) → good (.list items))
    (hobject : ∀ members, GoodTable goodPart members → good (.object members)) :
    Yields good (readerWith nested) := by
  have hscan : ∀ negative, Yields Number.IsRead (scan (readNumber negative)) :=
    fun _ => yields_scan fun _ _ _ h => readNumber_isRead h
  unfold readerWith
  refine yields_bind' fun cs => ?_
  split
  · exact yields_refuse _
  · split
    · exact yields_bind' fun _ => yields_bind' fun _ => yields_pure hnull
    split
    · exact yields_bind' fun _ => yields_bind' fun _ => yields_pure (hboolean true)
    split
    · exact yields_bind' fun _ => yields_bind' fun _ => yields_pure (hboolean false)
    split
    · exact yields_bind' fun _ => yields_bind (hscan true) fun n hn => yields_pure (hnumber n hn)
    split
    · exact yields_bind (hscan false) fun n hn => yields_pure (hnumber n hn)
    split
    · exact yields_bind' fun _ => yields_bind' fun s => yields_pure (htext _)
    split
    · split
      · exact yields_refuse _
      · next item =>
          refine yields_bind' fun _ => yields_bind ?_ fun items h => yields_pure (hlist items h)
          exact yields_bind' fun _ => itemsFrom_yields (hnested item rfl) _ _
    split
    · split
      · exact yields_refuse _
      · next value =>
          exact yields_bind' fun _ => yields_bind (tableOf_yields (hnested value rfl))
            fun members h => yields_pure (hobject members h)
    · exact yields_refuse _

theorem readerWith_proper {nested : Option (Reader Json)}
    (hnested : ∀ m, nested = some m → Yields Proper m) : Yields Proper (readerWith nested) :=
  readerWith_yields hnested .null .boolean (fun _ h => .number h.proper) .text (fun _ h => .list h)
    fun _ h => .object h.names h.values

/-- **Every value that is read is proper.** -/
theorem reader_proper (levels : Nat) : Yields Proper (reader levels) := by
  induction levels with
  | zero => exact readerWith_proper fun _ h => by cases h
  | succ levels ih => exact readerWith_proper fun _ h => by cases h; exact ih

/-- A text that is read as a value starts with it. -/
theorem reader_of_ofText {text : String} {j : Json} (h : ofText text = .ok j) :
    ∃ rest, reader maxLevels text.toList = .ok (j, rest) := by
  obtain ⟨⟨value, rest⟩, hread, h⟩ := Outcome.bind_eq_ok.1 h
  dsimp only at h
  split at h
  · cases h
    exact ⟨rest, hread⟩
  · cases h

theorem proper_of_ofText {text : String} {j : Json} (h : ofText text = .ok j) : j.Proper := by
  obtain ⟨rest, hread⟩ := reader_of_ofText h
  exact reader_proper maxLevels _ _ _ hread

/-- A number among the values has been read as a numeral. -/
theorem readerWith_isRead (nested : Option (Reader Json)) :
    Yields (fun j => ∀ n, j = .number n → n.IsRead) (readerWith nested) := by
  refine readerWith_yields (fun m _ => yields_true m) nofun (fun _ => nofun) ?_ (fun _ => nofun)
    (fun _ _ => nofun) fun _ _ => nofun
  rintro n hn _ ⟨⟩
  exact hn

theorem isRead_of_ofText {text : String} {n : Number} (h : ofText text = .ok (.number n)) : n.IsRead := by
  obtain ⟨rest, hread⟩ := reader_of_ofText h
  exact readerWith_isRead _ _ _ _ hread n rfl

/-! ## Records -/

section Records

variable {σ : Type} {good : σ → Prop}

theorem mismatch_yields {α : Type} {good : α → Prop} (wanted : String) :
    Yields good (mismatch wanted : Reader α) := by
  unfold mismatch
  refine yields_bind' fun cs => ?_
  split
  · exact yields_refuse _
  · exact yields_refuse _
  · exact yields_bind' fun _ => yields_refuse _

theorem recordItems_yields {field : σ → String → Reader σ}
    (hfield : ∀ s name, good s → Yields good (field s name)) (names : List String) (i : Nat) {s : σ}
    (hs : good s) : Yields good (recordItems field names i s) := by
  induction names generalizing i s with
  | nil => exact yields_bind' fun _ => yields_pure hs
  | cons name names ih =>
      rw [recordItems]
      refine yields_bind' fun more => ?_
      split
      · exact yields_bind (yields_under _ (hfield s name hs)) fun s' hs' => ih (i + 1) hs'
      · exact yields_bind' fun _ => yields_pure hs

/-- What reading any one member keeps, reading the record keeps. -/
theorem recordReader_yields {wanted : String} {names : List String} {start : σ}
    {field : σ → String → Reader σ} (hstart : good start)
    (hfield : ∀ s name, good s → Yields good (field s name)) :
    Yields good (recordReader wanted names start field) := by
  have hmember : ∀ (s : σ × List String) key, good s.1 →
      Yields (fun s => good s.1) (recordMember names field s key) := by
    intro ⟨s, seen⟩ key hs
    unfold recordMember
    dsimp only
    split
    · exact yields_under _ (yields_refuse _)
    · split
      · exact yields_refuse _
      · exact yields_bind' fun _ => yields_bind (yields_under _ (hfield s key hs))
          fun s' hs' => yields_pure hs'
  unfold recordReader
  refine yields_bind' fun cs => ?_
  split
  · refine yields_bind' fun _ => ?_
    have hfold := foldMembers_yields hmember (show good (start, ([] : List String)).1 from hstart)
    exact yields_bind hfold fun s hs => yields_pure hs
  · exact yields_bind' fun _ => recordItems_yields hfield _ _ hstart
  · exact mismatch_yields _

variable {field : σ → String → Json → Except Problem σ}

theorem foldlM_valueMember_eq_ok {names : List String}
    (hfield : ∀ s name value s', good s → value.Proper → field s name value = .ok s' → good s')
    {members : List (String × Json)} (hmembers : ∀ member ∈ members, member.2.Proper)
    {s s' : σ × List String} (hs : good s.1)
    (h : members.foldlM (valueMember names field) s = .ok s') : good s'.1 := by
  induction members generalizing s with
  | nil => cases h; exact hs
  | cons member rest ih =>
      rw [List.foldlM_cons] at h
      obtain ⟨next, hnext, h⟩ := Outcome.bind_eq_ok.1 h
      refine ih (fun m hm => hmembers m (List.mem_cons_of_mem _ hm)) ?_ h
      unfold valueMember at hnext
      dsimp only at hnext
      split at hnext
      · cases hnext
      · split at hnext
        · cases hnext
        · obtain ⟨t, ht, hnext⟩ := Outcome.bind_eq_ok.1 hnext
          cases hnext
          exact hfield _ _ _ _ hs (hmembers member List.mem_cons_self) (Outcome.mapError_eq_ok.1 ht)

theorem valueItems_eq_ok
    (hfield : ∀ s name value s', good s → value.Proper → field s name value = .ok s' → good s')
    {names : List String} {i : Nat} {items : List Json} (hitems : ∀ item ∈ items, item.Proper)
    {s s' : σ} (hs : good s) (h : valueItems field names i items s = .ok s') : good s' := by
  induction items generalizing names i s with
  | nil => cases names <;> cases h <;> exact hs
  | cons item rest ih =>
      cases names with
      | nil => cases h
      | cons name names =>
          obtain ⟨t, ht, h⟩ := Outcome.bind_eq_ok.1 h
          refine ih (fun m hm => hitems m (List.mem_cons_of_mem _ hm)) ?_ h
          exact hfield _ _ _ _ hs (hitems item List.mem_cons_self) (Outcome.mapError_eq_ok.1 ht)

/-- What reading any one member keeps, reading the record from a value keeps. -/
theorem recordOfValue_eq_ok {wanted : String} {names : List String} {start s : σ} {j : Json}
    (hfield : ∀ s name value s', good s → value.Proper → field s name value = .ok s' → good s')
    (hstart : good start) (hj : j.Proper)
    (h : recordOfValue wanted names start field j = .ok s) : good s := by
  cases hj with
  | object _ hmembers =>
      obtain ⟨t, ht, h⟩ := Outcome.bind_eq_ok.1 h
      cases h
      exact foldlM_valueMember_eq_ok hfield hmembers (show good (start, ([] : List String)).1 from hstart) ht
  | list hitems => exact valueItems_eq_ok hfield hitems hstart h
  | null => cases h
  | boolean b => cases h
  | number hn => cases h
  | text s => cases h

end Records

end SchemaTyping.Json
