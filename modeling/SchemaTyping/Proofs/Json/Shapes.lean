import Mathlib.Data.List.DropRight
import SchemaTyping.Proofs.Json.Local
import SchemaTyping.Proofs.Json.Proper

set_option autoImplicit false

/-! # Values of a known shape are JSON values

Strings, choices, records and the other values of a known shape are read straight off the text. Each of
these readers is closed, or local in the case of a count, and what it takes is a JSON value
(`TakesValue`), which is shown by following it with the reader of JSON values (`Follows`). A record goes
one level deeper than its members. -/

namespace SchemaTyping.Json

namespace Reader

variable {α β γ δ : Type}

/-- Whatever the first reader takes off a text the second takes too, with a related result. -/
def Follows (R : α → β → Prop) (m : Reader α) (m' : Reader β) : Prop :=
  ∀ cs a rest, m cs = .ok (a, rest) → ∃ b, m' cs = .ok (b, rest) ∧ R a b

theorem follows_refl (m : Reader α) : Follows (· = ·) m m := fun _ a _ h => ⟨a, h, rfl⟩

theorem follows_pure {R : α → β → Prop} {a : α} {b : β} (h : R a b) : Follows R (pure a) (pure b) := by
  intro cs a' rest hrun
  cases hrun
  exact ⟨b, rfl, h⟩

theorem follows_of_ne_ok {R : α → β → Prop} {m : Reader α} (m' : Reader β) (h : ∀ cs r, m cs ≠ .ok r) :
    Follows R m m' := fun cs _ _ hrun => absurd hrun (h cs _)

theorem follows_bind {R : α → β → Prop} {S : γ → δ → Prop} {m : Reader α} {m' : Reader β}
    {f : α → Reader γ} {f' : β → Reader δ} (hm : Follows R m m')
    (hf : ∀ a b, R a b → Follows S (f a) (f' b)) : Follows S (m >>= f) (m' >>= f') := by
  intro cs c rest hrun
  obtain ⟨a, mid, ha, hc⟩ := bind_eq_ok.1 hrun
  obtain ⟨b, hb, hab⟩ := hm cs a mid ha
  obtain ⟨d, hd, hcd⟩ := hf a b hab mid c rest hc
  exact ⟨d, bind_eq_ok.2 ⟨b, mid, hb, hd⟩, hcd⟩

theorem follows_under {R : α → β → Prop} {m : Reader α} {m' : Reader β} (s s' : Step)
    (h : Follows R m m') : Follows R (under s m) (under s' m') := by
  intro cs a rest hrun
  obtain ⟨b, hb, hab⟩ := h cs a rest (under_eq_ok.1 hrun)
  exact ⟨b, under_eq_ok.2 hb, hab⟩

end Reader

open Reader

/-! ## Lists and objects -/

section

variable {α β σ τ : Type}

theorem itemsFrom_follows {R : α → β → Prop} {item : Reader α} {item' : Reader β}
    (h : Follows R item item') (fuel i : Nat) :
    Follows (List.Forall₂ R) (itemsFrom item fuel i) (itemsFrom item' fuel i) := by
  induction fuel generalizing i with
  | zero => exact follows_of_ne_ok _ fun cs r hrun => by cases hrun
  | succ fuel ih =>
      rw [itemsFrom, itemsFrom]
      refine follows_bind (follows_refl _) fun more _ hmore => ?_
      subst hmore
      cases more with
      | false => exact follows_bind (follows_refl _) fun _ _ _ => follows_pure .nil
      | true =>
          refine follows_bind (follows_under _ _ h) fun x y hxy => ?_
          exact follows_bind (ih (i + 1)) fun xs ys hall => follows_pure (.cons hxy hall)

theorem membersFrom_follows {R : σ → τ → Prop} {member : σ → String → Reader σ}
    {member' : τ → String → Reader τ} (h : ∀ s t key, R s t → Follows R (member s key) (member' t key))
    (fuel : Nat) (first : Bool) {s : σ} {t : τ} (hst : R s t) :
    Follows R (membersFrom member fuel first s) (membersFrom member' fuel first t) := by
  induction fuel generalizing first s t with
  | zero => exact follows_of_ne_ok _ fun cs r hrun => by cases hrun
  | succ fuel ih =>
      rw [membersFrom, membersFrom]
      refine follows_bind (follows_refl _) fun key? _ hkey => ?_
      subst hkey
      cases key? with
      | none => exact follows_bind (follows_refl _) fun _ _ _ => follows_pure hst
      | some key => exact follows_bind (h s t key hst) fun s' t' hst' => ih false hst'

theorem foldMembers_follows {R : σ → τ → Prop} {member : σ → String → Reader σ}
    {member' : τ → String → Reader τ} (h : ∀ s t key, R s t → Follows R (member s key) (member' t key))
    {s : σ} {t : τ} (hst : R s t) : Follows R (foldMembers s member) (foldMembers t member') :=
  fun cs => membersFrom_follows h (cs.length + 1) true hst cs

theorem foldMembers_eq (member : σ → String → Reader σ) (start : σ) (cs : List Char) :
    foldMembers start member cs = membersFrom member (cs.length + 1) true start cs := rfl

theorem listOf_follows {R : α → β → Prop} {item : Reader α} {item' : Reader β} (h : Follows R item item') :
    Follows (List.Forall₂ R) (listOf item) (listOf item') :=
  fun cs => itemsFrom_follows h (cs.length + 1) 0 cs

theorem tableOf_follows {value value' : Reader α} (h : Follows (· = ·) value value') :
    Follows (· = ·) (tableOf value) (tableOf value') := by
  refine foldMembers_follows (fun t _ key ht => ?_) rfl
  subst ht
  refine follows_bind (follows_refl _) fun _ _ _ => follows_bind (follows_under _ _ h) fun v _ hv => ?_
  subst hv
  exact follows_pure rfl

end

/-! ## Values -/

section

variable {nested : Option (Reader Json)} {c : Char} {cs tail : List Char}

theorem readerWith_list (h : cs.dropWhile isBlank = '[' :: tail) (item : Reader Json) :
    readerWith (some item) cs = (do return .list (← listOf item) : Reader Json) tail := by
  rw [readerWith, ahead_bind, h]
  rfl

theorem readerWith_object (h : cs.dropWhile isBlank = '\x7b' :: tail) (value : Reader Json) :
    readerWith (some value) cs = (do return .object (← tableOf value) : Reader Json) tail := by
  rw [readerWith, ahead_bind, h]
  rfl

theorem readerWith_text (h : cs.dropWhile isBlank = '"' :: tail) :
    readerWith nested cs = (do return .text (String.ofList (← scan readText)) : Reader Json) tail := by
  rw [readerWith, ahead_bind, h]
  rfl

/-- What starts with no bracket is read alike at all levels. -/
theorem readerWith_scalar (h : cs.dropWhile isBlank = c :: tail) (hlist : c ≠ '[') (hobject : c ≠ '\x7b')
    (nested : Option (Reader Json)) : readerWith nested cs = readerWith none cs := by
  simp only [readerWith, ahead_bind, h, if_neg hlist, if_neg hobject]

end

theorem readerWith_follows {nested nested' : Option (Reader Json)}
    (h : ∀ m, nested = some m → ∃ m', nested' = some m' ∧ Follows (· = ·) m m') :
    Follows (· = ·) (readerWith nested) (readerWith nested') := by
  intro cs j rest hrun
  obtain ⟨c, tail, hcs, -⟩ := exists_of_ahead (fun h => by cases h) hrun
  by_cases hlist : c = '['
  · subst hlist
    cases hnested : nested with
    | none =>
        rw [hnested, readerWith, ahead_bind, hcs] at hrun
        cases hrun
    | some item =>
        obtain ⟨item', rfl, hitem⟩ := h item hnested
        rw [hnested, readerWith_list hcs] at hrun
        rw [readerWith_list hcs]
        refine follows_bind (listOf_follows hitem) (fun xs ys hxs => ?_) _ _ _ hrun
        rw [List.forall₂_eq_eq_eq] at hxs
        subst hxs
        exact follows_pure rfl
  by_cases hobject : c = '\x7b'
  · subst hobject
    cases hnested : nested with
    | none =>
        rw [hnested, readerWith, ahead_bind, hcs] at hrun
        cases hrun
    | some value =>
        obtain ⟨value', rfl, hvalue⟩ := h value hnested
        rw [hnested, readerWith_object hcs] at hrun
        rw [readerWith_object hcs]
        refine follows_bind (tableOf_follows hvalue) (fun t _ ht => ?_) _ _ _ hrun
        subst ht
        exact follows_pure rfl
  · rw [readerWith_scalar hcs hlist hobject] at hrun
    rw [readerWith_scalar hcs hlist hobject]
    exact ⟨j, hrun, rfl⟩

/-- More levels read the same. -/
theorem reader_follows {levels levels' : Nat} (h : levels ≤ levels') :
    Follows (· = ·) (reader levels) (reader levels') := by
  induction levels generalizing levels' with
  | zero =>
      cases levels' with
      | zero => exact follows_refl _
      | succ levels' => exact readerWith_follows fun m hm => by cases hm
  | succ levels ih =>
      obtain ⟨k, rfl⟩ : ∃ k, levels' = k + 1 := ⟨levels' - 1, by omega⟩
      refine readerWith_follows fun m hm => ?_
      cases hm
      exact ⟨_, rfl, ih (by omega)⟩

/-! ## Scalars -/

section

variable {α : Type}

theorem mismatch_ne_ok (wanted : String) (cs : List Char) (r : α × List Char) :
    (mismatch wanted : Reader α) cs ≠ .ok r := by
  intro h
  have hnone : Yields (fun _ => False) (mismatch wanted : Reader α) := mismatch_yields wanted
  exact hnone cs r.1 r.2 h

theorem closed_of_ne_ok {m : Reader α} (h : ∀ cs r, m cs ≠ .ok r) : Closed m :=
  fun cs _ _ hrun => absurd hrun (h cs _)

/-- What the reader takes off a text is a value. -/
def TakesValue (levels : Nat) (m : Reader α) : Prop := Follows (fun _ _ => True) m (reader levels)

theorem TakesValue.map {β : Type} {levels : Nat} {m : Reader α} (h : TakesValue levels m) (f : α → β) :
    TakesValue levels (do return f (← m)) := by
  intro cs b rest hrun
  obtain ⟨a, mid, ha, hb⟩ := bind_eq_ok.1 hrun
  cases hb
  exact h cs a _ ha

/-- What starts with no bracket is a value at every level if it is one at the lowest. -/
theorem exists_reader_of_scalar (levels : Nat) {c : Char} {cs tail rest : List Char} {j : Json}
    (hcs : cs.dropWhile isBlank = c :: tail) (hlist : c ≠ '[') (hobject : c ≠ '\x7b')
    (h : readerWith none cs = .ok (j, rest)) : reader levels cs = .ok (j, rest) := by
  cases levels with
  | zero => exact h
  | succ levels => exact (readerWith_scalar hcs hlist hobject _).trans h

theorem stringReader_quote {cs tail : List Char} (h : cs.dropWhile isBlank = '"' :: tail) :
    stringReader cs = (do return String.ofList (← scan readText) : Reader String) tail := by
  rw [stringReader, ahead_bind, h]
  rfl

theorem exists_of_stringReader {cs : List Char} {r : String × List Char} (h : stringReader cs = .ok r) :
    ∃ tail, cs.dropWhile isBlank = '"' :: tail := by
  obtain ⟨c, tail, hcs, h⟩ := exists_of_ahead (mismatch_ne_ok _ _ _) h
  by_cases hquote : c = '"'
  · exact ⟨tail, by rw [hcs, hquote]⟩
  · exact absurd (by simpa [hquote] using h) (mismatch_ne_ok "a string" (c :: tail) r)

theorem takesValue_stringReader (levels : Nat) : TakesValue levels stringReader := by
  intro cs s rest h
  obtain ⟨tail, hcs⟩ := exists_of_stringReader h
  rw [stringReader_quote hcs] at h
  obtain ⟨chars, mid, hchars, h⟩ := bind_eq_ok.1 h
  cases h
  have hvalue : readerWith none cs = .ok (.text (String.ofList chars), rest) := by
    rw [readerWith_text hcs]
    exact bind_eq_ok.2 ⟨chars, rest, hchars, rfl⟩
  exact ⟨_, exists_reader_of_scalar levels hcs (by decide) (by decide) hvalue, trivial⟩

theorem closed_stringReader : Closed stringReader := by
  refine closed_ahead ⟨mismatch_ne_ok _ _, fun c => ?_⟩
  by_cases hquote : c = '"'
  · subst hquote
    exact from_take (closed_bind closed_one.local fun _ => closed_map closed_readText _)
  · refine from_of_eq (closed_of_ne_ok (mismatch_ne_ok "a string")) fun rest => ?_
    split
    · simp_all
    · rfl

theorem takesValue_boolReader (levels : Nat) : TakesValue levels boolReader := by
  intro cs b rest h
  obtain ⟨c, tail, hcs, h⟩ := exists_of_ahead (mismatch_ne_ok _ _ _) h
  have hread (ws : List Char) (value : Bool)
      (hrun : (do scan (readWord ws); return value : Reader Bool) tail = .ok (b, rest)) :
      (do scan (readWord ws); return .boolean value : Reader Json) tail = .ok (.boolean value, rest) := by
    obtain ⟨u, mid, hword, hb⟩ := bind_eq_ok.1 hrun
    cases hb
    exact bind_eq_ok.2 ⟨u, rest, hword, rfl⟩
  by_cases ht : c = 't'
  · subst ht
    have hvalue : readerWith none cs = .ok (.boolean true, rest) := by
      rw [readerWith, ahead_bind, hcs]
      exact hread _ true h
    exact ⟨_, exists_reader_of_scalar levels hcs (by decide) (by decide) hvalue, trivial⟩
  by_cases hf : c = 'f'
  · subst hf
    have hvalue : readerWith none cs = .ok (.boolean false, rest) := by
      rw [readerWith, ahead_bind, hcs]
      exact hread _ false h
    exact ⟨_, exists_reader_of_scalar levels hcs (by decide) (by decide) hvalue, trivial⟩
  · exact absurd (by simpa [ht, hf] using h) (mismatch_ne_ok "a boolean" (c :: tail) (b, rest))

theorem advances_boolReader : Advances boolReader := by
  refine advances_ahead ⟨mismatch_ne_ok _ _, fun c => ?_⟩
  have hword (ws : List Char) (b : Bool) : Advances (one >>= fun _ => (do scan (readWord ws); return b)) :=
    advances_bind closed_one.advances fun _ =>
      local_bind (local_scan (localScan_readWord ws)) fun _ => local_pure b
  by_cases ht : c = 't'
  · subst ht
    exact from_take (hword _ _)
  by_cases hf : c = 'f'
  · subst hf
    exact from_take (hword _ _)
  · refine from_of_eq ((closed_of_ne_ok (mismatch_ne_ok "a boolean")).advances) fun rest => ?_
    split
    · simp_all
    · simp_all
    · rfl

theorem takesValue_countReader (levels : Nat) : TakesValue levels countReader := by
  intro cs n rest h
  obtain ⟨c, tail, hcs, h⟩ := exists_of_ahead (fun h => by cases h) h
  dsimp only at h
  split at h
  · next hc =>
      obtain ⟨j, mid, hj, h⟩ := bind_eq_ok.1 h
      have hmid : mid = rest := by
        split at h
        · split at h <;> cases h
          rfl
        · cases h
      subst hmid
      have hnumber : c ≠ '[' ∧ c ≠ '\x7b' := by
        constructor <;> rintro rfl <;> revert hc <;> decide
      have hvalue : readerWith none cs = .ok (j, mid) := by
        rw [← hj, ← hcs]
        simp only [readerWith, ahead_bind, List.dropWhile_idempotent]
      exact ⟨j, exists_reader_of_scalar levels hcs hnumber.1 hnumber.2 hvalue, trivial⟩
  · exact absurd h (mismatch_ne_ok _ _ _)

theorem advances_countReader : Advances countReader := by
  refine advances_ahead ⟨fun _ h => (by cases h), fun c => from_ite (fun _ => from_keep ?_) fun _ => ?_⟩
  · refine advances_bind (advances_readerWith fun _ h => by cases h) fun j => ?_
    split
    · split
      · exact local_pure _
      · exact local_refuse _
    · exact local_refuse _
  · exact from_keep (closed_of_ne_ok (mismatch_ne_ok "usize")).advances

/-! ## Choices -/

variable {choices : Table α}

/-- A name is a choice or it is refused; the text has no part in it. -/
theorem choose_cases (choices : Table α) (name : String) :
    (∃ choice, choose choices name = pure choice) ∨ ∃ fault, choose choices name = refuse fault := by
  unfold choose
  split
  · exact Or.inl ⟨_, rfl⟩
  · exact Or.inr ⟨_, rfl⟩

theorem choose_eq_ok {name : String} {cs rest : List Char} {a : α}
    (h : choose choices name cs = .ok (a, rest)) : rest = cs := by
  rcases choose_cases choices name with ⟨_, hc⟩ | ⟨_, hc⟩
  · rw [hc] at h
    cases h
    rfl
  · rw [hc] at h
    cases h

/-- A choice written as an object: its name, the value of the only member and the closing brace. -/
def choiceName : Reader String := do
  match ← ahead with
  | '"' :: _ => stringReader
  | _ => mismatch "variant identifier"

@[inherit_doc choiceName]
def choiceValue : Reader Unit := do
  match ← ahead with
  | 'n' :: rest =>
    set rest
    scan (readWord ['u', 'l', 'l'])
  | _ => mismatch "unit"

@[inherit_doc choiceName]
def choiceEnd : Reader Unit := do
  match ← ahead with
  | [] => fail .endInObject
  | c :: rest => if c = '\x7d' then set rest else fail .expectedValue

/-- A choice written as an object, after its opening brace. -/
def choiceMember (choices : Table α) : Reader α := do
  let name ← choiceName
  let choice ← choose choices name
  colon
  under (.key name) choiceValue
  choiceEnd
  return choice

theorem choiceName_bind {β : Type} (k : String → Reader β) : (choiceName >>= k) = (ahead >>= fun cs =>
    match cs with
    | '"' :: _ => stringReader >>= k
    | _ => mismatch "variant identifier" >>= k) := by
  simp only [choiceName, bind_assoc]
  refine bind_congr fun cs => ?_
  split <;> simp_all

theorem choiceEnd_bind {β : Type} (k : Unit → Reader β) : (choiceEnd >>= k) = (ahead >>= fun cs =>
    match cs with
    | [] => fail .endInObject >>= k
    | c :: rest => if c = '\x7d' then set rest >>= k else fail .expectedValue >>= k) := by
  simp only [choiceEnd, bind_assoc]
  refine bind_congr fun cs => ?_
  cases cs with
  | nil => rfl
  | cons c rest => by_cases hc : c = '\x7d' <;> simp only [hc, if_true, if_false]

theorem choiceReader_object {cs tail : List Char} (h : cs.dropWhile isBlank = '\x7b' :: tail) :
    choiceReader choices cs = choiceMember choices tail := by
  rw [choiceReader, ahead_bind, h, choiceMember, choiceName_bind]
  simp only [choiceEnd_bind]
  rfl

theorem choiceReader_text {cs tail : List Char} (h : cs.dropWhile isBlank = '"' :: tail) :
    choiceReader choices cs = (do choose choices (← stringReader)) cs := by
  rw [choiceReader, ahead_bind, h]
  have : stringReader ('"' :: tail) = stringReader cs := by
    rw [stringReader_quote h, stringReader_quote rfl]
  exact congrArg (fun x => x >>= fun (name, cs) => choose choices name cs) this

theorem closed_choiceName : Closed choiceName := by
  refine closed_ahead ⟨mismatch_ne_ok _ _, fun c => ?_⟩
  by_cases hquote : c = '"'
  · subst hquote
    exact from_keep closed_stringReader
  · refine from_of_eq (closed_of_ne_ok (mismatch_ne_ok "variant identifier")) fun rest => ?_
    split
    · simp_all
    · rfl

theorem local_choiceValue : Local choiceValue := by
  refine local_ahead ⟨mismatch_ne_ok _ _, fun c => ?_⟩
  by_cases hn : c = 'n'
  · subst hn
    exact from_take (local_bind closed_one.local fun _ => local_scan (localScan_readWord _))
  · refine from_of_eq ((closed_of_ne_ok (mismatch_ne_ok "unit")).local) fun rest => ?_
    split
    · simp_all
    · rfl

theorem closed_choiceEnd : Closed choiceEnd := by
  refine closed_ahead ⟨fun _ h => (by cases h), fun c => from_ite (fun _ => ?_) fun _ => ?_⟩
  · exact from_take (closed_map closed_one _)
  · exact from_keep (closed_refuse _)

theorem closed_choiceMember : Closed (choiceMember choices) := by
  refine closed_bind closed_choiceName.local fun name => ?_
  have hchoose : Local (choose choices name) := by
    rcases choose_cases choices name with ⟨choice, h⟩ | ⟨fault, h⟩
    · exact h ▸ local_pure choice
    · exact h ▸ local_refuse fault
  refine closed_bind hchoose fun choice => closed_bind closed_colon.local fun _ => ?_
  exact closed_bind (local_under _ local_choiceValue) fun _ => closed_map closed_choiceEnd _

theorem closed_choiceReader (choices : Table α) : Closed (choiceReader choices) := by
  refine closed_ahead ⟨fun _ h => (by cases h), fun c => ?_⟩
  by_cases hquote : c = '"'
  · subst hquote
    exact from_keep (closed_then closed_stringReader (choose_cases choices))
  by_cases hobject : c = '\x7b'
  · subst hobject
    have hmember (rest : List Char) :
        choiceReader choices ('\x7b' :: rest) = choiceMember choices rest := choiceReader_object rfl
    exact ⟨one >>= fun _ => choiceMember choices, closed_bind closed_one.local fun _ => closed_choiceMember,
      hmember⟩
  · refine from_of_eq (closed_refuse (.malformed .expectedValue)) fun rest => ?_
    split
    · simp_all
    · simp_all
    · simp_all
    · rfl

theorem nextKey_of_stringReader {cs mid : List Char} {key : String}
    (h : stringReader cs = .ok (key, mid)) : nextKey true cs = .ok (some key, mid) := by
  obtain ⟨tail, hcs⟩ := exists_of_stringReader h
  rw [stringReader_quote hcs] at h
  obtain ⟨chars, _, hchars, h⟩ := bind_eq_ok.1 h
  cases h
  have hkey : readKey (fail .keyNotText) ('"' :: tail) = .ok (some (String.ofList chars), mid) :=
    bind_eq_ok.2 ⟨_, _, rfl, bind_eq_ok.2 ⟨(), tail, rfl, bind_eq_ok.2 ⟨chars, mid, hchars, rfl⟩⟩⟩
  refine under_eq_ok.2 ?_
  rw [ahead_bind, hcs]
  exact hkey

theorem nextKey_of_brace {cs tail : List Char} (h : cs.dropWhile isBlank = '\x7d' :: tail) (first : Bool) :
    nextKey first cs = .ok (none, '\x7d' :: tail) := by
  refine under_eq_ok.2 ?_
  rw [ahead_bind, h]
  rfl

theorem reader_of_choiceValue (levels : Nat) {cs rest : List Char} (h : choiceValue cs = .ok ((), rest)) :
    reader levels cs = .ok (.null, rest) := by
  obtain ⟨c, tail, hcs, h⟩ := exists_of_ahead (mismatch_ne_ok _ _ _) h
  by_cases hn : c = 'n'
  · subst hn
    have hword : scan (readWord ['u', 'l', 'l']) tail = .ok ((), rest) := h
    refine exists_reader_of_scalar levels hcs (by decide) (by decide) ?_
    rw [readerWith, ahead_bind, hcs]
    exact bind_eq_ok.2 ⟨(), tail, rfl, bind_eq_ok.2 ⟨(), rest, hword, rfl⟩⟩
  · exact absurd (by simpa [hn] using h) (mismatch_ne_ok "unit" (c :: tail) ((), rest))

theorem brace_of_choiceEnd {cs rest : List Char} (h : choiceEnd cs = .ok ((), rest)) :
    cs.dropWhile isBlank = '\x7d' :: rest := by
  obtain ⟨c, tail, hcs, h⟩ := exists_of_ahead (fun h => by cases h) h
  dsimp only at h
  split at h
  · next hc =>
      cases h
      rw [hcs, hc]
  · cases h

theorem stringReader_of_choiceName {cs : List Char} {r : String × List Char} (h : choiceName cs = .ok r) :
    stringReader cs = .ok r := by
  obtain ⟨c, tail, hcs, h⟩ := exists_of_ahead (mismatch_ne_ok _ _ _) h
  by_cases hquote : c = '"'
  · subst hquote
    have hsame : stringReader ('"' :: tail) = stringReader cs := by
      rw [stringReader_quote hcs, stringReader_quote rfl]
    exact hsame.symm.trans h
  · exact absurd (by simpa [hquote] using h) (mismatch_ne_ok "variant identifier" (c :: tail) r)

/-- A choice written as an object has one member, with the value null. -/
theorem tableOf_of_choiceMember (levels : Nat) {cs rest : List Char} {choice : α}
    (h : choiceMember choices cs = .ok (choice, rest)) :
    ∃ name, tableOf (reader levels) cs = .ok ([(name, .null)], rest) := by
  obtain ⟨name, mid, hname, h⟩ := bind_eq_ok.1 h
  obtain ⟨choice', mid', hchoose, h⟩ := bind_eq_ok.1 h
  obtain ⟨_, mid'', hcolon, h⟩ := bind_eq_ok.1 h
  obtain ⟨_, mid₃, hvalue, h⟩ := bind_eq_ok.1 h
  obtain ⟨_, _, hend, h⟩ := bind_eq_ok.1 h
  cases h
  obtain rfl := choose_eq_ok hchoose
  have hkey := nextKey_of_stringReader (stringReader_of_choiceName hname)
  have hlength : mid'.length < cs.length := by
    rcases nextKey_eq_ok hkey with ⟨hnone, -⟩ | ⟨-, hlt⟩
    · cases hnone
    · exact hlt
  obtain ⟨fuel, hfuel⟩ : ∃ k, cs.length = k + 1 := ⟨cs.length - 1, by omega⟩
  refine ⟨name, ?_⟩
  rw [tableOf, foldMembers_eq, hfuel, membersFrom]
  refine bind_eq_ok.2 ⟨some name, mid', hkey, bind_eq_ok.2 ⟨[(name, .null)], mid₃, ?_, ?_⟩⟩
  · refine bind_eq_ok.2 ⟨(), mid'', hcolon, bind_eq_ok.2 ⟨.null, mid₃, ?_, rfl⟩⟩
    exact under_eq_ok.2 (reader_of_choiceValue levels (under_eq_ok.1 hvalue))
  · rw [membersFrom]
    exact bind_eq_ok.2 ⟨none, _, nextKey_of_brace (brace_of_choiceEnd hend) false, rfl⟩

theorem takesValue_choiceReader (choices : Table α) (levels : Nat) :
    TakesValue (levels + 1) (choiceReader choices) := by
  intro cs choice rest h
  obtain ⟨c, tail, hcs, hc⟩ := exists_of_ahead (fun h => by cases h) h
  by_cases hquote : c = '"'
  · subst hquote
    rw [choiceReader_text hcs] at h
    obtain ⟨name, mid, hname, hchoose⟩ := bind_eq_ok.1 h
    obtain rfl := choose_eq_ok hchoose
    exact takesValue_stringReader _ _ _ _ hname
  by_cases hobject : c = '\x7b'
  · subst hobject
    rw [choiceReader_object hcs] at h
    obtain ⟨name, htable⟩ := tableOf_of_choiceMember levels h
    refine ⟨.object [(name, .null)], ?_, trivial⟩
    rw [reader, readerWith_object hcs]
    exact bind_eq_ok.2 ⟨_, rest, htable, rfl⟩
  · exact absurd (by simpa [hquote, hobject] using hc) (fail_ne_ok .expectedValue (c :: tail) (choice, rest))

end

/-! ## Records -/

section

variable {σ : Type} {names : List String} {field : σ → String → Reader σ} {levels : Nat}

theorem endList_eq_ok {cs rest : List Char} {u : Unit} :
    endList cs = .ok (u, rest) ↔ cs.dropWhile isBlank = ']' :: rest := by
  constructor
  · intro h
    obtain ⟨c, tail, hcs, h⟩ := exists_of_ahead (fun h => by cases h) h
    dsimp only at h
    split at h
    · next hend =>
        cases h
        rw [hcs, hend]
    split at h
    · cases htail : tail.dropWhile isBlank with
      | nil =>
          rw [htail] at h
          cases h
      | cons d tail' =>
          rw [htail] at h
          by_cases hd : d = ']'
          · subst hd
            cases h
          · exact absurd (by simpa [hd] using h) (fail_ne_ok .trailingCharacters (c :: tail) (u, rest))
    · cases h
  · intro h
    rw [endList, ahead_bind, h]
    rfl

theorem closed_endList : Closed endList := by
  intro cs u rest h
  have hcs := endList_eq_ok.1 h
  refine ⟨cs.takeWhile isBlank ++ [']'], by simp, ?_, fun other => endList_eq_ok.2 ?_⟩
  · rw [List.append_assoc, List.singleton_append, ← hcs, List.takeWhile_append_dropWhile]
  · have hhead : (']' :: other).head? = (cs.dropWhile isBlank).head? := by rw [hcs]; rfl
    rw [List.append_assoc]
    exact (span_swap hhead).2

theorem nextItem_of_endList {cs rest : List Char} {u : Unit} (h : endList cs = .ok (u, rest))
    (first : Bool) : nextItem first cs = .ok (false, ']' :: rest) := by
  rw [nextItem, ahead_bind, endList_eq_ok.1 h]
  rfl

theorem recordItems_closed (hfield : ∀ s name, Local (field s name)) (i : Nat) (s : σ) :
    Closed (recordItems field names i s) := by
  induction names generalizing i s with
  | nil => exact closed_map closed_endList _
  | cons name names ih =>
      intro cs s' rest h
      rw [recordItems] at h
      obtain ⟨more, mid, hmore, h⟩ := bind_eq_ok.1 h
      obtain ⟨front, rfl, hfront⟩ := local_nextItem _ _ _ _ hmore
      cases more with
      | false =>
          obtain ⟨tail, -, rfl⟩ := eq_cons_of_nextItem hmore
          cases h
          refine ⟨front ++ [']'], by simp, by simp, fun other => ?_⟩
          rw [recordItems, List.append_assoc]
          exact bind_eq_ok.2 ⟨false, ']' :: other, hfront _ rfl, rfl⟩
      | true =>
          have hrest : Closed (do
              let s ← under (.index i) (field s name)
              recordItems field names (i + 1) s) :=
            closed_bind (local_under _ (hfield s name)) fun s => ih (i + 1) s
          obtain ⟨back, hne, rfl, hback⟩ := hrest _ _ _ h
          refine ⟨front ++ back, by simp [hne], (List.append_assoc ..).symm, fun other => ?_⟩
          rw [recordItems, List.append_assoc]
          exact bind_eq_ok.2 ⟨true, back ++ other, hfront _ (head?_of_ne_nil hne), hback other⟩

theorem local_recordMember (hfield : ∀ s name, Local (field s name)) (s : σ × List String) (key : String) :
    Local (recordMember names field s key) := by
  obtain ⟨s, seen⟩ := s
  unfold recordMember
  dsimp only
  split
  · exact local_under _ (local_refuse _)
  split
  · exact local_refuse _
  · exact local_bind closed_colon.local fun _ =>
      local_bind (local_under _ (hfield s key)) fun _ => local_pure _

/-- A record ends with its bracket. -/
theorem closed_recordReader (hfield : ∀ s name, Local (field s name)) (wanted : String) (start : σ) :
    Closed (recordReader wanted names start field) := by
  refine closed_ahead ⟨mismatch_ne_ok _ _, fun c => ?_⟩
  by_cases hobject : c = '\x7b'
  · subst hobject
    exact from_take (closed_bind closed_one.local fun _ =>
      closed_map (closed_foldMembers (local_recordMember hfield) _) _)
  by_cases hlist : c = '['
  · subst hlist
    exact from_take (closed_bind closed_one.local fun _ => recordItems_closed hfield _ _)
  · refine from_of_eq (closed_of_ne_ok (mismatch_ne_ok wanted)) fun rest => ?_
    split
    · simp_all
    · simp_all
    · rfl

/-- The items of a record are those of a list, which has fuel enough to find where they end. -/
theorem recordItems_takesItems (hfield : ∀ s name, TakesValue levels (field s name)) {i : Nat} {s s' : σ}
    {cs rest : List Char} (h : recordItems field names i s cs = .ok (s', rest)) {fuel : Nat}
    (hfuel : cs.length < fuel) : ∃ items, itemsFrom (reader levels) fuel i cs = .ok (items, rest) := by
  induction names generalizing i s cs fuel with
  | nil =>
      obtain ⟨_, mid, hend, h⟩ := bind_eq_ok.1 h
      cases h
      obtain ⟨fuel, rfl⟩ : ∃ k, fuel = k + 1 := ⟨fuel - 1, by omega⟩
      refine ⟨[], ?_⟩
      rw [itemsFrom]
      exact bind_eq_ok.2 ⟨false, _, nextItem_of_endList hend _, rfl⟩
  | cons name names ih =>
      rw [recordItems] at h
      obtain ⟨more, mid, hmore, h⟩ := bind_eq_ok.1 h
      have hmid := (local_nextItem _).length_le hmore
      obtain ⟨fuel, rfl⟩ : ∃ k, fuel = k + 1 := ⟨fuel - 1, by omega⟩
      rw [itemsFrom]
      cases more with
      | false =>
          obtain ⟨tail, -, rfl⟩ := eq_cons_of_nextItem hmore
          cases h
          exact ⟨[], bind_eq_ok.2 ⟨false, _, hmore, rfl⟩⟩
      | true =>
          obtain ⟨s₁, mid', hs₁, h⟩ := bind_eq_ok.1 h
          obtain ⟨j, hj, -⟩ := hfield _ _ _ _ _ (under_eq_ok.1 hs₁)
          have hlt := (advances_reader levels).takes _ _ _ hj
          have hfuel' : mid'.length < fuel := by omega
          obtain ⟨items, hitems⟩ := ih h hfuel'
          refine ⟨j :: items, bind_eq_ok.2 ⟨true, mid, hmore, ?_⟩⟩
          exact bind_eq_ok.2 ⟨j, mid', under_eq_ok.2 hj, bind_eq_ok.2 ⟨items, rest, hitems, rfl⟩⟩

theorem recordMember_takesMember (hfield : ∀ s name, TakesValue levels (field s name))
    (s : σ × List String) (t : Table Json) (key : String) :
    Follows (fun _ _ => True) (recordMember names field s key) (do
      colon
      let v ← under (.key key) (reader levels)
      return t.insert key v) := by
  obtain ⟨s, seen⟩ := s
  unfold recordMember
  dsimp only
  split
  · exact follows_of_ne_ok _ fun cs r h => by cases h
  split
  · exact follows_of_ne_ok _ fun cs r h => by cases h
  · refine follows_bind (follows_refl _) fun _ _ _ => ?_
    exact follows_bind (follows_under _ _ (hfield s key)) fun _ _ _ => follows_pure trivial

theorem recordReader_object {cs tail : List Char} (h : cs.dropWhile isBlank = '\x7b' :: tail)
    (wanted : String) (start : σ) :
    recordReader wanted names start field cs =
      (do return (← foldMembers (start, []) (recordMember names field)).1 : Reader σ) tail := by
  rw [recordReader, ahead_bind, h]
  rfl

theorem recordReader_list {cs tail : List Char} (h : cs.dropWhile isBlank = '[' :: tail)
    (wanted : String) (start : σ) :
    recordReader wanted names start field cs = recordItems field names 0 start tail := by
  rw [recordReader, ahead_bind, h]
  rfl

/-- A record whose members are values is a value with one level more. -/
theorem takesValue_recordReader (hfield : ∀ s name, TakesValue levels (field s name)) (wanted : String)
    (start : σ) : TakesValue (levels + 1) (recordReader wanted names start field) := by
  intro cs s rest h
  obtain ⟨c, tail, hcs, hc⟩ := exists_of_ahead (mismatch_ne_ok _ _ _) h
  by_cases hobject : c = '\x7b'
  · subst hobject
    rw [recordReader_object hcs] at h
    obtain ⟨_, mid, hmembers, hs⟩ := bind_eq_ok.1 h
    cases hs
    obtain ⟨t, ht, -⟩ := foldMembers_follows (fun s t key _ => recordMember_takesMember hfield s t key)
      trivial _ _ _ hmembers
    refine ⟨.object t, ?_, trivial⟩
    rw [reader, readerWith_object hcs]
    exact bind_eq_ok.2 ⟨t, rest, ht, rfl⟩
  by_cases hlist : c = '['
  · subst hlist
    rw [recordReader_list hcs] at h
    obtain ⟨items, hitems⟩ := recordItems_takesItems hfield h (Nat.lt_succ_self _)
    refine ⟨.list items, ?_, trivial⟩
    rw [reader, readerWith_list hcs]
    exact bind_eq_ok.2 ⟨items, rest, hitems, rfl⟩
  · exact absurd (by simpa [hobject, hlist] using hc) (mismatch_ne_ok wanted (c :: tail) (s, rest))

end

end SchemaTyping.Json
