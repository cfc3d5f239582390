import Mathlib.Data.List.Nodup
import SchemaTyping.Proofs.Json.Shapes
import SchemaTyping.Proofs.Table

set_option autoImplicit false

/-! # Records from a text and from its value

A record can be read off a text, member by member, or from the value that the text is. An object keeps one
value for each key, the last one, while a text can repeat a key; `writtenMembers` are its members as they
are written. When none of the members of the record is repeated the two ways agree
(`recordReader_agrees`). -/

namespace SchemaTyping.Json

open Reader

/-! ## Members as they are written -/

section

variable {α : Type}

/-- The members of an object with repeated keys. -/
def writtenMembers (value : Reader α) : Reader (List (String × α)) :=
  foldMembers [] fun members key => do
    colon
    let v ← under (.key key) value
    return members ++ [(key, v)]

/-- Store the members one after the other. -/
def stored (members : List (String × α)) : Table α :=
  members.foldl (fun t (key, v) => t.insert key v) []

theorem stored_append (members : List (String × α)) (key : String) (v : α) :
    stored (members ++ [(key, v)]) = (stored members).insert key v := by
  rw [stored, List.foldl_append]
  rfl

/-- The members of an object are those that are written, stored one after the other. -/
theorem tableOf_eq (value : Reader α) : tableOf value = (do return stored (← writtenMembers value)) := by
  have hmembers (fuel : Nat) (first : Bool) (members : List (String × α)) :
      membersFrom (fun t key => do
          colon
          let v ← under (.key key) value
          return Table.insert key v t) fuel first (stored members)
        = (do return stored (← membersFrom (fun members key => do
            colon
            let v ← under (.key key) value
            return members ++ [(key, v)]) fuel first members)) := by
    induction fuel generalizing first members with
    | zero => rfl
    | succ fuel ih =>
        rw [membersFrom, membersFrom, bind_assoc]
        refine bind_congr fun key? => ?_
        cases key? with
        | none => rfl
        | some key => simp only [bind_assoc, pure_bind, ← ih, stored_append]
  funext cs
  exact congrFun (hmembers (cs.length + 1) true []) cs

theorem tableOf_eq_ok {value : Reader α} {cs rest : List Char} {t : Table α} :
    tableOf value cs = .ok (t, rest) ↔
      ∃ members, writtenMembers value cs = .ok (members, rest) ∧ stored members = t := by
  rw [tableOf_eq, bind_eq_ok]
  constructor
  · rintro ⟨members, mid, hmembers, h⟩
    cases h
    exact ⟨members, hmembers, rfl⟩
  · rintro ⟨members, hmembers, rfl⟩
    exact ⟨members, rest, hmembers, rfl⟩

theorem writtenMembers_follows {value value' : Reader α} (h : Follows (· = ·) value value') :
    Follows (· = ·) (writtenMembers value) (writtenMembers value') := by
  refine foldMembers_follows (fun members _ key hmembers => ?_) rfl
  subst hmembers
  refine follows_bind (follows_refl _) fun _ _ _ => follows_bind (follows_under _ _ h) fun v _ hv => ?_
  subst hv
  exact follows_pure rfl

end

/-! ## Members and items -/

section

variable {σ : Type} {names : List String} {levels : Nat} {field : σ → String → Reader σ}
variable {valueField : σ → String → Json → Except Problem σ}

/-- Reading a member off the text gives what its value gives. -/
def FieldAgrees (levels : Nat) (field : σ → String → Reader σ)
    (valueField : σ → String → Json → Except Problem σ) : Prop :=
  ∀ s key cs v rest, reader levels cs = .ok (v, rest) → ∀ s' rest',
    field s key cs = .ok (s', rest') ↔ rest' = rest ∧ valueField s key v = .ok s'

/-- One member of a record, read off the text and taken from the object. -/
theorem recordMember_agrees (hagrees : FieldAgrees levels field valueField) {s s' : σ × List String}
    {key : String} {cs mid rest rest' : List Char} {v : Json} (hcolon : colon cs = .ok ((), mid))
    (hv : reader levels mid = .ok (v, rest)) :
    recordMember names field s key cs = .ok (s', rest') ↔
      rest' = rest ∧ valueMember names valueField s (key, v) = .ok s' := by
  obtain ⟨s, seen⟩ := s
  unfold recordMember valueMember
  dsimp only
  split
  · exact ⟨fun h => (by cases h), fun ⟨_, h⟩ => (by cases h)⟩
  split
  · exact ⟨fun h => (by cases h), fun ⟨_, h⟩ => (by cases h)⟩
  constructor
  · intro h
    obtain ⟨_, mid', hcolon', h⟩ := bind_eq_ok.1 h
    obtain ⟨s₁, mid'', hs₁, hpure⟩ := bind_eq_ok.1 h
    cases hcolon.symm.trans hcolon'
    cases hpure
    obtain ⟨rfl, hvalue⟩ := (hagrees _ _ _ _ _ hv _ _).1 (under_eq_ok.1 hs₁)
    exact ⟨rfl, Outcome.bind_eq_ok.2 ⟨s₁, Outcome.mapError_eq_ok.2 hvalue, rfl⟩⟩
  · rintro ⟨rfl, h⟩
    obtain ⟨s₁, hvalue, h⟩ := Outcome.bind_eq_ok.1 h
    cases h
    have hs₁ := (hagrees s key _ _ _ hv s₁ rest').2 ⟨rfl, Outcome.mapError_eq_ok.1 hvalue⟩
    exact bind_eq_ok.2 ⟨(), mid, hcolon, bind_eq_ok.2 ⟨s₁, rest', under_eq_ok.2 hs₁, rfl⟩⟩

theorem membersFrom_agrees (names : List String) (hagrees : FieldAgrees levels field valueField)
    {fuel : Nat} {first : Bool} {before members : List (String × Json)} {cs rest : List Char}
    (h : membersFrom (fun members key => do
        colon
        let v ← under (.key key) (reader levels)
        return members ++ [(key, v)]) fuel first before cs = .ok (members, rest)) :
    ∃ new, members = before ++ new ∧ ∀ s s' rest',
      membersFrom (recordMember names field) fuel first s cs = .ok (s', rest') ↔
        rest' = rest ∧ new.foldlM (valueMember names valueField) s = .ok s' := by
  -- both runs find the same keys, since they read the same text
  induction fuel generalizing first before cs with
  | zero => cases h
  | succ fuel ih =>
      rw [membersFrom] at h
      obtain ⟨key?, mid, hkey, h⟩ := bind_eq_ok.1 h
      cases key? with
      | none =>
          cases h
          refine ⟨[], (List.append_nil _).symm, fun s s' rest' => ?_⟩
          rw [membersFrom]
          constructor
          · intro h
            obtain ⟨_, _, hkey', h⟩ := bind_eq_ok.1 h
            cases hkey.symm.trans hkey'
            cases h
            exact ⟨rfl, rfl⟩
          · rintro ⟨rfl, h⟩
            cases h
            exact bind_eq_ok.2 ⟨none, mid, hkey, rfl⟩
      | some key =>
          obtain ⟨_, afterMember, hmember, hrest⟩ := bind_eq_ok.1 h
          obtain ⟨_, afterColon, hcolon, hmember⟩ := bind_eq_ok.1 hmember
          obtain ⟨v, _, hv, hmember⟩ := bind_eq_ok.1 hmember
          cases hmember
          have hv := under_eq_ok.1 hv
          obtain ⟨new, rfl, hnew⟩ := ih hrest
          refine ⟨(key, v) :: new, by simp, fun s s' rest' => ?_⟩
          rw [membersFrom, List.foldlM_cons]
          constructor
          · intro h
            obtain ⟨_, _, hkey', h⟩ := bind_eq_ok.1 h
            cases hkey.symm.trans hkey'
            obtain ⟨s₁, mid', hs₁, h⟩ := bind_eq_ok.1 h
            obtain ⟨rfl, hvalue⟩ := (recordMember_agrees hagrees hcolon hv).1 hs₁
            obtain ⟨hsame, hothers⟩ := (hnew _ _ _).1 h
            exact ⟨hsame, Outcome.bind_eq_ok.2 ⟨s₁, hvalue, hothers⟩⟩
          · rintro ⟨rfl, hfold⟩
            obtain ⟨s₁, hfirst, hothers⟩ := Outcome.bind_eq_ok.1 hfold
            have hs₁ := (recordMember_agrees hagrees hcolon hv).2 ⟨rfl, hfirst⟩
            exact bind_eq_ok.2 ⟨some key, mid, hkey, bind_eq_ok.2 ⟨s₁, _, hs₁, (hnew _ _ _).2 ⟨rfl, hothers⟩⟩⟩

/-- A record that is a list: its items may be fewer than the members, but not more. -/
theorem itemsFrom_agrees (hagrees : FieldAgrees levels field valueField) {fuel i : Nat} {items : List Json}
    {cs rest : List Char} (h : itemsFrom (reader levels) fuel i cs = .ok (items, rest)) (s s' : σ)
    (rest' : List Char) :
    recordItems field names i s cs = .ok (s', rest') ↔
      rest' = rest ∧ valueItems valueField names i items s = .ok s' := by
  induction fuel generalizing names i items cs s with
  | zero => cases h
  | succ fuel ih =>
      rw [itemsFrom] at h
      obtain ⟨more, mid, hmore, h⟩ := bind_eq_ok.1 h
      cases more with
      | false =>
          obtain ⟨tail, hcs, rfl⟩ := eq_cons_of_nextItem hmore
          cases h
          cases names with
          | nil =>
              constructor
              · intro h
                obtain ⟨_, _, hend, h⟩ := bind_eq_ok.1 h
                cases h
                cases hcs.symm.trans (endList_eq_ok.1 hend)
                exact ⟨rfl, rfl⟩
              · rintro ⟨rfl, hitems⟩
                cases hitems
                exact bind_eq_ok.2 ⟨(), _, endList_eq_ok.2 hcs, rfl⟩
          | cons name names =>
              rw [recordItems]
              constructor
              · intro h
                obtain ⟨_, _, hmore', h⟩ := bind_eq_ok.1 h
                cases hmore.symm.trans hmore'
                cases h
                exact ⟨rfl, rfl⟩
              · rintro ⟨rfl, hitems⟩
                cases hitems
                exact bind_eq_ok.2 ⟨false, _, hmore, rfl⟩
      | true =>
          obtain ⟨v, mid', hv, h⟩ := bind_eq_ok.1 h
          obtain ⟨others, _, hothers, h⟩ := bind_eq_ok.1 h
          cases h
          have hv := under_eq_ok.1 hv
          cases names with
          | nil =>
              constructor
              · intro h
                obtain ⟨_, _, hend, -⟩ := bind_eq_ok.1 h
                cases hmore.symm.trans (nextItem_of_endList hend _)
              · rintro ⟨-, h⟩
                cases h
          | cons name names =>
              rw [recordItems, valueItems]
              constructor
              · intro h
                obtain ⟨_, _, hmore', hrun⟩ := bind_eq_ok.1 h
                cases hmore.symm.trans hmore'
                obtain ⟨s₁, _, hs₁, hrun⟩ := bind_eq_ok.1 hrun
                obtain ⟨rfl, hvalue⟩ := (hagrees _ _ _ _ _ hv _ _).1 (under_eq_ok.1 hs₁)
                obtain ⟨hsame, hrest⟩ := (ih hothers s₁).1 hrun
                exact ⟨hsame, Outcome.bind_eq_ok.2 ⟨s₁, Outcome.mapError_eq_ok.2 hvalue, hrest⟩⟩
              · rintro ⟨rfl, hitems⟩
                obtain ⟨s₁, hfirst, hrest⟩ := Outcome.bind_eq_ok.1 hitems
                have hs₁ := (hagrees s name _ _ _ hv s₁ _).2 ⟨rfl, Outcome.mapError_eq_ok.1 hfirst⟩
                exact bind_eq_ok.2 ⟨true, mid, hmore, bind_eq_ok.2
                  ⟨s₁, mid', under_eq_ok.2 hs₁, (ih hothers s₁).2 ⟨rfl, hrest⟩⟩⟩

/-! ## Records -/

/-- A record takes none but its own members, and each of them once. -/
theorem foldlM_valueMember_keys {members : List (String × Json)} {s s' : σ × List String}
    (h : members.foldlM (valueMember names valueField) s = .ok s') :
    (∀ member ∈ members, member.1 ∈ names ∧ member.1 ∉ s.2) ∧ (Table.names members).Nodup := by
  induction members generalizing s with
  | nil => exact ⟨fun _ h => absurd h List.not_mem_nil, List.nodup_nil⟩
  | cons member rest ih =>
      obtain ⟨s, seen⟩ := s
      obtain ⟨key, v⟩ := member
      rw [List.foldlM_cons] at h
      obtain ⟨s₁, hfirst, hrest⟩ := Outcome.bind_eq_ok.1 h
      unfold valueMember at hfirst
      dsimp only at hfirst
      split at hfirst
      · cases hfirst
      split at hfirst
      · cases hfirst
      next hname hseen =>
      obtain ⟨s₂, -, hfirst⟩ := Outcome.bind_eq_ok.1 hfirst
      cases hfirst
      obtain ⟨hothers, hdistinct⟩ := ih hrest
      refine ⟨List.forall_mem_cons.2 ⟨⟨by simpa using hname, hseen⟩, fun other hother => ?_⟩, ?_⟩
      · obtain ⟨hother, hnot⟩ := hothers other hother
        exact ⟨hother, fun h => hnot (List.mem_cons_of_mem _ h)⟩
      · refine List.nodup_cons.2 ⟨fun h => ?_, hdistinct⟩
        obtain ⟨other, hother, hkey⟩ := List.mem_map.1 h
        exact (hothers other hother).2 (hkey ▸ List.mem_cons_self)

/-- When no member of the record is repeated it makes no difference whether the members are stored
    before. -/
theorem foldlM_stored {members : List (String × Json)}
    (hcount : ∀ name ∈ names, (Table.names members).count name ≤ 1) (start : σ) {s : σ × List String} :
    (stored members).foldlM (valueMember names valueField) (start, []) = .ok s ↔
      members.foldlM (valueMember names valueField) (start, []) = .ok s := by
  have hstored (h : (Table.names members).Nodup) : stored members = members :=
    Table.foldl_insert_eq_append members [] h fun _ _ => List.not_mem_nil
  constructor
  · intro h
    obtain ⟨hkeys, -⟩ := foldlM_valueMember_keys h
    -- a key that is written is stored, so it is one of the record, and those are written once
    have hdistinct : (Table.names members).Nodup := by
      refine List.nodup_iff_count_le_one.2 fun name => ?_
      by_cases hname : name ∈ Table.names members
      · obtain ⟨member, hmember, rfl⟩ := List.mem_map.1 (Table.mem_names_foldl_insert.2 (Or.inr hname))
        exact hcount _ (hkeys member hmember).1
      · rw [List.count_eq_zero.2 hname]
        exact Nat.zero_le _
    rwa [hstored hdistinct] at h
  · intro h
    rwa [hstored (foldlM_valueMember_keys h).2]

/-- The keys of the object that a text starts with, as they are written. -/
def writtenKeys (levels : Nat) (cs : List Char) : List String :=
  match cs.dropWhile isBlank with
  | '\x7b' :: tail =>
    match writtenMembers (reader levels) tail with
    | .ok (members, _) => Table.names members
    | .error _ => []
  | _ => []

theorem writtenKeys_object {cs tail rest : List Char} {members : List (String × Json)}
    (h : cs.dropWhile isBlank = '\x7b' :: tail)
    (hmembers : writtenMembers (reader levels) tail = .ok (members, rest)) :
    writtenKeys levels cs = Table.names members := by
  unfold writtenKeys
  rw [h]
  simp only [hmembers]

theorem writtenKeys_of_ne {c : Char} {cs tail : List Char} (h : cs.dropWhile isBlank = c :: tail)
    (hc : c ≠ '\x7b') : writtenKeys levels cs = [] := by
  unfold writtenKeys
  rw [h]
  split
  · simp_all
  · rfl

/-- What starts with no bracket is no list and no object. -/
theorem scalar_yields :
    Yields (fun j => (∀ members, j ≠ .object members) ∧ ∀ items, j ≠ .list items) (readerWith none) := by
  unfold readerWith
  refine yields_bind' fun cs => ?_
  split
  · exact yields_refuse _
  split
  · exact yields_bind' fun _ => yields_bind' fun _ => yields_pure (by simp)
  split
  · exact yields_bind' fun _ => yields_bind' fun _ => yields_pure (by simp)
  split
  · exact yields_bind' fun _ => yields_bind' fun _ => yields_pure (by simp)
  split
  · exact yields_bind' fun _ => yields_bind' fun _ => yields_pure (by simp)
  split
  · exact yields_bind' fun _ => yields_pure (by simp)
  split
  · exact yields_bind' fun _ => yields_bind' fun _ => yields_pure (by simp)
  split
  · exact yields_refuse _
  split
  · exact yields_refuse _
  · exact yields_refuse _

/-- What starts with no brace is no object. -/
theorem ne_object_of_ne {c : Char} {cs tail rest : List Char} {j : Json}
    (h : cs.dropWhile isBlank = c :: tail) (hc : c ≠ '\x7b')
    (hj : reader (levels + 1) cs = .ok (j, rest)) (members : Members) : j ≠ .object members := by
  by_cases hlist : c = '['
  · subst hlist
    rw [reader, readerWith_list h] at hj
    obtain ⟨items, _, -, hj⟩ := bind_eq_ok.1 hj
    cases hj
    simp
  · rw [reader, readerWith_scalar h hlist hc] at hj
    exact (scalar_yields _ _ _ hj).1 members

/-- **A record is what its value is**, if none of its members is written twice. -/
theorem recordReader_agrees (hagrees : FieldAgrees levels field valueField) {cs rest : List Char} {j : Json}
    (hj : reader (levels + 1) cs = .ok (j, rest))
    (hcount : ∀ name ∈ names, (writtenKeys levels cs).count name ≤ 1) (wanted : String) (start s : σ)
    (rest' : List Char) :
    recordReader wanted names start field cs = .ok (s, rest') ↔
      rest' = rest ∧ recordOfValue wanted names start valueField j = .ok s := by
  obtain ⟨c, tail, hcs, -⟩ := exists_of_ahead (fun h => by cases h) hj
  by_cases hobject : c = '\x7b'
  · subst hobject
    rw [reader, readerWith_object hcs] at hj
    obtain ⟨t, _, ht, hj⟩ := bind_eq_ok.1 hj
    cases hj
    obtain ⟨members, hmembers, rfl⟩ := tableOf_eq_ok.1 ht
    obtain ⟨new, hnew, hfold⟩ := membersFrom_agrees names hagrees hmembers
    obtain rfl : members = new := by simpa using hnew
    rw [writtenKeys_object hcs hmembers] at hcount
    have hstored (r : σ × List String) :
        (stored members).foldlM (valueMember names valueField) (start, []) = .ok r ↔
          members.foldlM (valueMember names valueField) (start, []) = .ok r := foldlM_stored hcount start
    rw [recordReader_object hcs]
    constructor
    · intro h
      obtain ⟨r, mid, hr, h⟩ := bind_eq_ok.1 h
      cases h
      obtain ⟨rfl, hvalue⟩ := (hfold _ _ _).1 hr
      exact ⟨rfl, Outcome.bind_eq_ok.2 ⟨r, (hstored r).2 hvalue, rfl⟩⟩
    · rintro ⟨rfl, h⟩
      obtain ⟨r, hr, h⟩ := Outcome.bind_eq_ok.1 h
      cases h
      exact bind_eq_ok.2 ⟨r, rest', (hfold _ _ _).2 ⟨rfl, (hstored r).1 hr⟩, rfl⟩
  by_cases hlist : c = '['
  · subst hlist
    rw [reader, readerWith_list hcs] at hj
    obtain ⟨items, _, hitems, hj⟩ := bind_eq_ok.1 hj
    cases hj
    rw [recordReader_list hcs]
    exact itemsFrom_agrees hagrees hitems _ _ _
  · rw [reader, readerWith_scalar hcs hlist hobject] at hj
    constructor
    · intro h
      obtain ⟨c', tail', hcs', h⟩ := exists_of_ahead (mismatch_ne_ok _ _ _) h
      cases hcs.symm.trans hcs'
      exact absurd (by simpa [hobject, hlist] using h) (mismatch_ne_ok wanted (c :: tail) (s, rest'))
    · rintro ⟨-, h⟩
      obtain ⟨hnotObject, hnotList⟩ := scalar_yields _ _ _ hj
      cases j with
      | object members => exact absurd rfl (hnotObject members)
      | list items => exact absurd rfl (hnotList items)
      | _ => cases h

/-- More levels do not change which keys are written. -/
theorem writtenKeys_of_le {levels' : Nat} {cs rest : List Char} {j : Json}
    (hj : reader (levels + 1) cs = .ok (j, rest)) (hle : levels ≤ levels') :
    writtenKeys levels' cs = writtenKeys levels cs := by
  obtain ⟨c, tail, hcs, -⟩ := exists_of_ahead (fun h => by cases h) hj
  by_cases hobject : c = '\x7b'
  · subst hobject
    rw [reader, readerWith_object hcs] at hj
    obtain ⟨t, _, ht, -⟩ := bind_eq_ok.1 hj
    obtain ⟨members, hmembers, -⟩ := tableOf_eq_ok.1 ht
    obtain ⟨_, hmore, rfl⟩ := writtenMembers_follows (reader_follows hle) _ _ _ hmembers
    rw [writtenKeys_object hcs hmembers, writtenKeys_object hcs hmore]
  · rw [writtenKeys_of_ne hcs hobject, writtenKeys_of_ne hcs hobject]

end

end SchemaTyping.Json
