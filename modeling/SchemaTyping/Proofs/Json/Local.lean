import SchemaTyping.Proofs.Json.Scanning

set_option autoImplicit false

/-! # How much of a text a reader looks at

A reader is `Local` if what it takes and makes of a text depends on no more than the characters it takes
and the one behind them, and `Closed` if not even on that one. Sequences of readers inherit both, and a
reader that looks ahead is local when each of its ways to go on is (`From`, `Peeks`). A numeral is local; a
string, a list or an object ends with a character of its own and is closed. -/

namespace SchemaTyping.Json

namespace Reader

variable {α β : Type}

/-! ## Runs -/

theorem bind_eq_ok {m : Reader α} {f : α → Reader β} {cs rest : List Char} {b : β} :
    (m >>= f) cs = .ok (b, rest) ↔ ∃ a mid, m cs = .ok (a, mid) ∧ f a mid = .ok (b, rest) := by
  constructor
  · intro h
    obtain ⟨⟨a, mid⟩, ha, hb⟩ := Outcome.bind_eq_ok.1 h
    exact ⟨a, mid, ha, hb⟩
  · rintro ⟨a, mid, ha, hb⟩
    exact Outcome.bind_eq_ok.2 ⟨(a, mid), ha, hb⟩

theorem under_eq_ok {s : Step} {m : Reader α} {cs : List Char} {r : α × List Char} :
    under s m cs = .ok r ↔ m cs = .ok r := Outcome.mapError_eq_ok

theorem scan_eq_ok {f : List Char → Except Malformed (α × List Char)} {cs : List Char}
    {r : α × List Char} : scan f cs = .ok r ↔ f cs = .ok r := by
  unfold scan
  split <;> simp_all

theorem ahead_bind (f : List Char → Reader α) (cs : List Char) :
    (ahead >>= f) cs = f (cs.dropWhile isBlank) (cs.dropWhile isBlank) := rfl

theorem exists_of_ahead {f : List Char → Reader α} {cs : List Char} {r : α × List Char}
    (hnil : f [] [] ≠ .ok r) (h : (ahead >>= f) cs = .ok r) :
    ∃ c tail, cs.dropWhile isBlank = c :: tail ∧ f (c :: tail) (c :: tail) = .ok r := by
  rw [ahead_bind] at h
  cases hcs : cs.dropWhile isBlank with
  | nil =>
      rw [hcs] at h
      exact absurd h hnil
  | cons c tail =>
      rw [hcs] at h
      exact ⟨c, tail, rfl, h⟩

/-! ## Composing readers -/

/-- What the reader takes off the text and what it makes of it depend on no more than that and the character
    behind it. -/
def Local (m : Reader α) : Prop := ∀ cs a rest, m cs = .ok (a, rest) →
  ∃ front, cs = front ++ rest ∧ ∀ other, other.head? = rest.head? → m (front ++ other) = .ok (a, other)

/-- The reader takes something, and what it makes of it does not depend on anything behind it. -/
def Closed (m : Reader α) : Prop := ∀ cs a rest, m cs = .ok (a, rest) →
  ∃ front, front ≠ [] ∧ cs = front ++ rest ∧ ∀ other, m (front ++ other) = .ok (a, other)

/-- The reader takes something. -/
def Takes (m : Reader α) : Prop := ∀ cs a rest, m cs = .ok (a, rest) → rest.length < cs.length

/-- The reader takes something and looks at no more than that and the character behind it. -/
structure Advances (m : Reader α) : Prop where
  isLocal : Local m
  takes : Takes m

theorem Closed.local {m : Reader α} (h : Closed m) : Local m := by
  intro cs a rest hrun
  obtain ⟨front, -, hcs, hother⟩ := h cs a rest hrun
  exact ⟨front, hcs, fun other _ => hother other⟩

theorem Closed.takes {m : Reader α} (h : Closed m) : Takes m := by
  intro cs a rest hrun
  obtain ⟨front, hfront, rfl, -⟩ := h cs a rest hrun
  have := List.length_pos_of_ne_nil hfront
  rw [List.length_append]
  omega

theorem Closed.advances {m : Reader α} (h : Closed m) : Advances m := ⟨h.local, h.takes⟩

theorem Local.length_le {m : Reader α} (h : Local m) {cs rest : List Char} {a : α}
    (hrun : m cs = .ok (a, rest)) : rest.length ≤ cs.length := by
  obtain ⟨front, rfl, -⟩ := h cs a rest hrun
  simp

theorem local_pure (a : α) : Local (pure a) := by
  intro cs b rest hrun
  cases hrun
  exact ⟨[], rfl, fun _ _ => rfl⟩

theorem local_refuse (f : Fault) : Local (refuse f : Reader α) := fun _ _ _ hrun => by cases hrun

theorem closed_refuse (f : Fault) : Closed (refuse f : Reader α) := fun _ _ _ hrun => by cases hrun

theorem fail_ne_ok (m : Malformed) (cs : List Char) (r : α × List Char) :
    (fail m : Reader α) cs ≠ .ok r := by
  intro h
  cases h

/-- A text starts alike whatever comes after what it starts with. -/
theorem head?_of_ne_nil {front rest other : List Char} (h : front ≠ []) :
    (front ++ other).head? = (front ++ rest).head? := by
  rw [List.head?_append_of_ne_nil _ h, List.head?_append_of_ne_nil _ h]

theorem local_bind {m : Reader α} {f : α → Reader β} (hm : Local m) (hf : ∀ a, Local (f a)) :
    Local (m >>= f) := by
  intro cs b rest hrun
  obtain ⟨a, mid, ha, hb⟩ := bind_eq_ok.1 hrun
  obtain ⟨front, rfl, hfront⟩ := hm cs a mid ha
  obtain ⟨back, rfl, hback⟩ := hf a mid b rest hb
  refine ⟨front ++ back, (List.append_assoc ..).symm, fun other hother => ?_⟩
  rw [List.append_assoc]
  exact bind_eq_ok.2 ⟨a, back ++ other, hfront _ (head?_append_congr hother), hback other hother⟩

theorem closed_bind {m : Reader α} {f : α → Reader β} (hm : Local m) (hf : ∀ a, Closed (f a)) :
    Closed (m >>= f) := by
  intro cs b rest hrun
  obtain ⟨a, mid, ha, hb⟩ := bind_eq_ok.1 hrun
  obtain ⟨front, rfl, hfront⟩ := hm cs a mid ha
  obtain ⟨back, hne, rfl, hback⟩ := hf a mid b rest hb
  refine ⟨front ++ back, by simp [hne], (List.append_assoc ..).symm, fun other => ?_⟩
  rw [List.append_assoc]
  exact bind_eq_ok.2 ⟨a, back ++ other, hfront _ (head?_of_ne_nil hne), hback other⟩

/-- What has been taken may still be refused. -/
theorem closed_then {m : Reader α} {f : α → Reader β} (hm : Closed m)
    (hf : ∀ a, (∃ b, f a = pure b) ∨ ∃ fault, f a = refuse fault) : Closed (m >>= f) := by
  intro cs b rest hrun
  obtain ⟨a, mid, ha, hb⟩ := bind_eq_ok.1 hrun
  obtain ⟨front, hne, hcs, hfront⟩ := hm cs a mid ha
  rcases hf a with ⟨b', hpure⟩ | ⟨fault, hrefuse⟩
  · rw [hpure] at hb
    cases hb
    exact ⟨front, hne, hcs, fun other => bind_eq_ok.2 ⟨a, other, hfront other, by rw [hpure]; rfl⟩⟩
  · rw [hrefuse] at hb
    cases hb

theorem closed_map {m : Reader α} (hm : Closed m) (f : α → β) : Closed (do return f (← m)) :=
  closed_then hm fun a => Or.inl ⟨f a, rfl⟩

theorem takes_bind {m : Reader α} {f : α → Reader β} (hm : Takes m) (hf : ∀ a, Local (f a)) :
    Takes (m >>= f) := by
  intro cs b rest hrun
  obtain ⟨a, mid, ha, hb⟩ := bind_eq_ok.1 hrun
  exact Nat.lt_of_le_of_lt ((hf a).length_le hb) (hm cs a mid ha)

theorem advances_bind {m : Reader α} {f : α → Reader β} (hm : Advances m) (hf : ∀ a, Local (f a)) :
    Advances (m >>= f) := ⟨local_bind hm.isLocal hf, takes_bind hm.takes hf⟩

theorem local_under {m : Reader α} (s : Step) (hm : Local m) : Local (under s m) := by
  intro cs a rest hrun
  obtain ⟨front, hcs, hfront⟩ := hm cs a rest (under_eq_ok.1 hrun)
  exact ⟨front, hcs, fun other hother => under_eq_ok.2 (hfront other hother)⟩

/-- Take one character. -/
def one : Reader Unit
  | [] => .error ⟨[], .malformed .endInText⟩
  | _ :: rest => .ok ((), rest)

theorem closed_one : Closed one := by
  intro cs a rest hrun
  cases cs with
  | nil => cases hrun
  | cons c tail =>
      cases hrun
      exact ⟨[c], List.cons_ne_nil _ _, rfl, fun _ => rfl⟩

/-! ## Looking ahead -/

theorem local_blanks : Local (modify (·.dropWhile isBlank) : Reader Unit) := by
  intro cs a rest hrun
  cases hrun
  refine ⟨cs.takeWhile isBlank, List.takeWhile_append_dropWhile.symm, fun other hother => ?_⟩
  exact congrArg (fun cs => Except.ok ((), cs)) (span_swap hother).2

/-- On all texts with this first character the reader, which knows what follows it, goes on as one reader
    that does not. -/
def From (c : Char) (good : Reader α → Prop) (k : List Char → Reader α) : Prop :=
  ∃ m, good m ∧ ∀ rest, k rest (c :: rest) = m (c :: rest)

theorem from_keep {c : Char} {good : Reader α → Prop} {m : Reader α} (h : good m) :
    From c good fun _ => m := ⟨m, h, fun _ => rfl⟩

theorem from_of_eq {c : Char} {good : Reader α → Prop} {m : Reader α} {k : List Char → Reader α} (h : good m)
    (hk : ∀ rest, k rest = m) : From c good k := ⟨m, h, fun rest => congrFun (hk rest) (c :: rest)⟩

theorem from_take {c : Char} {good : Reader α → Prop} {m : Reader α} (h : good (one >>= fun _ => m)) :
    From c good fun rest => set rest >>= fun _ => m := ⟨_, h, fun _ => rfl⟩

theorem from_ite {c : Char} {good : Reader α → Prop} {p : Prop} [Decidable p]
    {k k' : List Char → Reader α} (h : p → From c good k) (h' : ¬ p → From c good k') :
    From c good fun rest => if p then k rest else k' rest := by
  by_cases hp : p
  · simpa only [if_pos hp] using h hp
  · simpa only [if_neg hp] using h' hp

/-- Where a text goes on, the reader only looks at the next character. Where it ends, it does not succeed. -/
structure Peeks (good : Reader α → Prop) (f : List Char → Reader α) : Prop where
  nil : ∀ r, f [] [] ≠ .ok r
  cons : ∀ c, From c good fun rest => f (c :: rest)

variable {f : List Char → Reader α}

theorem ahead_bind_eq (f : List Char → Reader α) :
    (ahead >>= f) = ((modify (·.dropWhile isBlank) : Reader Unit) >>= fun _ => get >>= f) := rfl

theorem local_ahead (h : Peeks Local f) : Local (ahead >>= f) := by
  rw [ahead_bind_eq]
  refine local_bind local_blanks fun _ => ?_
  intro cs a rest hrun
  cases cs with
  | nil => exact absurd hrun (h.nil _)
  | cons c tail =>
      obtain ⟨m, hm, hf⟩ := h.cons c
      obtain ⟨front, hcs, hfront⟩ := hm _ a rest ((hf tail).symm.trans hrun)
      refine ⟨front, hcs, fun other hother => ?_⟩
      -- the new text starts with the same character, so it is read by the same reader
      obtain ⟨tail', htail⟩ : ∃ tail', front ++ other = c :: tail' := by
        refine List.head?_eq_some_iff.1 ?_
        rw [head?_append_congr hother, ← hcs]
        rfl
      have hsame := hfront other hother
      rw [htail] at hsame ⊢
      exact (hf tail').trans hsame

theorem closed_ahead (h : Peeks Closed f) : Closed (ahead >>= f) := by
  rw [ahead_bind_eq]
  refine closed_bind local_blanks fun _ => ?_
  intro cs a rest hrun
  cases cs with
  | nil => exact absurd hrun (h.nil _)
  | cons c tail =>
      obtain ⟨m, hm, hf⟩ := h.cons c
      obtain ⟨front, hne, hcs, hfront⟩ := hm _ a rest ((hf tail).symm.trans hrun)
      refine ⟨front, hne, hcs, fun other => ?_⟩
      obtain ⟨c', front, rfl⟩ := List.exists_cons_of_ne_nil hne
      obtain rfl : c = c' := (List.cons.inj hcs).1
      exact (hf (front ++ other)).trans (hfront other)

theorem advances_ahead (h : Peeks Advances f) : Advances (ahead >>= f) where
  isLocal := by
    refine local_ahead ⟨h.nil, fun c => ?_⟩
    obtain ⟨m, hm, hf⟩ := h.cons c
    exact ⟨m, hm.isLocal, hf⟩
  takes := by
    intro cs a rest hrun
    obtain ⟨c, tail, hcs, hrun⟩ := exists_of_ahead (h.nil _) hrun
    obtain ⟨m, hm, hf⟩ := h.cons c
    have hlt := hm.takes _ a rest ((hf tail).symm.trans hrun)
    rw [← hcs] at hlt
    exact Nat.lt_of_lt_of_le hlt (List.dropWhile_sublist isBlank).length_le

end Reader

open Reader

/-! ## Scalars -/

theorem local_scan {α : Type} {f : List Char → Except Malformed (α × List Char)} (hf : LocalScan f) :
    Local (scan f) := by
  intro cs a rest hrun
  obtain ⟨front, hcs, hfront⟩ := hf cs a rest (scan_eq_ok.1 hrun)
  exact ⟨front, hcs, fun other hother => scan_eq_ok.2 (hfront other hother)⟩

theorem closed_readText : Closed (scan readText) := by
  intro cs s rest hrun
  obtain ⟨front, hne, hcs, hfront⟩ := readText_closed cs (scan_eq_ok.1 hrun)
  exact ⟨front, hne, hcs, fun other => scan_eq_ok.2 (hfront other)⟩

theorem advances_readNumber (negative : Bool) : Advances (scan (readNumber negative)) where
  isLocal := local_scan fun cs n rest h => by
    obtain ⟨front, -, hcs, hfront⟩ := readNumber_takes negative h
    exact ⟨front, hcs, hfront⟩
  takes := by
    intro cs n rest hrun
    obtain ⟨front, hne, rfl, -⟩ := readNumber_takes negative (scan_eq_ok.1 hrun)
    have := List.length_pos_of_ne_nil hne
    simp only [List.length_append]
    omega

/-! ## Items and keys -/

theorem local_nextItem (first : Bool) : Local (nextItem first) := by
  refine local_ahead ⟨fun _ h => (by cases h), fun c => from_ite (fun _ => ?_) fun _ => ?_⟩
  · exact from_keep (local_pure false)
  refine from_ite (fun _ => from_keep (local_pure true)) fun _ => from_ite (fun _ => ?_) fun _ => ?_
  · refine from_take (local_bind closed_one.local fun _ => local_ahead ⟨fun _ h => (by cases h), fun c => ?_⟩)
    exact from_ite (fun _ => from_keep (local_refuse _)) fun _ => from_keep (local_pure true)
  · exact from_keep (local_refuse _)

/-- Where there is no further item, the bracket is next. -/
theorem eq_cons_of_nextItem {first : Bool} {cs mid : List Char} (h : nextItem first cs = .ok (false, mid)) :
    ∃ tail, cs.dropWhile isBlank = ']' :: tail ∧ mid = ']' :: tail := by
  obtain ⟨c, tail, hcs, h⟩ := exists_of_ahead (fun h => by cases h) h
  dsimp only at h
  split at h
  · next hend =>
      cases h
      exact ⟨tail, by rw [hcs, hend], by rw [hend]⟩
  split at h
  · cases h
  split at h
  · obtain ⟨_, mid', -, h⟩ := bind_eq_ok.1 h
    obtain ⟨c, tail, -, h⟩ := exists_of_ahead (fun h => by cases h) h
    dsimp only at h
    split at h <;> cases h
  · cases h

theorem closed_readKey {starting : Reader (Option String)} (hstarting : ∀ cs r, starting cs ≠ .ok r) :
    Closed (readKey starting) := by
  refine closed_ahead ⟨hstarting [], fun c => ?_⟩
  by_cases hquote : c = '"'
  · subst hquote
    exact from_take (closed_bind closed_one.local fun _ => closed_map closed_readText _)
  · refine from_of_eq (fun cs a rest h => absurd h (hstarting cs _)) fun rest => ?_
    split
    · simp_all
    · rfl

theorem isSome_of_readKey {starting : Reader (Option String)} (hstarting : ∀ cs r, starting cs ≠ .ok r)
    {cs mid : List Char} {key? : Option String} (h : readKey starting cs = .ok (key?, mid)) :
    key?.isSome := by
  obtain ⟨c, tail, -, h⟩ := exists_of_ahead (hstarting _ _) h
  by_cases hquote : c = '"'
  · subst hquote
    obtain ⟨_, _, -, h⟩ := bind_eq_ok.1 h
    obtain ⟨s, _, -, h⟩ := bind_eq_ok.1 h
    cases h
    rfl
  · exact absurd (by simpa [hquote] using h) (hstarting (c :: tail) _)

/-- What is no key is refused after a comma. -/
def noKeyAfterComma : Reader (Option String) := do
  match ← ahead with
  | [] => fail .endInValue
  | c :: _ => if c = '\x7d' then fail .trailingComma else fail .keyNotText

/-- After a comma there has to be a key. -/
def keyAfterComma : Reader (Option String) := readKey noKeyAfterComma

theorem noKeyAfterComma_ne_ok (cs : List Char) (r : Option String × List Char) :
    noKeyAfterComma cs ≠ .ok r := by
  intro h
  obtain ⟨c, tail, -, h⟩ := exists_of_ahead (fun h => by cases h) h
  dsimp only at h
  split at h <;> cases h

theorem closed_keyAfterComma : Closed keyAfterComma := closed_readKey noKeyAfterComma_ne_ok

theorem local_nextKey (first : Bool) : Local (nextKey first) := by
  refine local_under _ (local_ahead ⟨fun _ h => (by cases h), fun c => from_ite (fun _ => ?_) fun _ => ?_⟩)
  · exact from_keep (local_pure none)
  refine from_ite (fun _ => from_keep (closed_readKey (fail_ne_ok _)).local) fun _ => ?_
  refine from_ite (fun _ => ?_) fun _ => from_keep (local_refuse _)
  exact from_take (local_bind closed_one.local fun _ => closed_keyAfterComma.local)

/-- Where there is no further key, the brace is next; a key that there is is taken off the text. -/
theorem nextKey_eq_ok {first : Bool} {cs mid : List Char} {key? : Option String}
    (h : nextKey first cs = .ok (key?, mid)) :
    (key? = none ∧ ∃ tail, mid = '\x7d' :: tail) ∨ (key?.isSome ∧ mid.length < cs.length) := by
  obtain ⟨c, tail, hcs, h⟩ := exists_of_ahead (fun h => by cases h) (under_eq_ok.1 h)
  have hle := (List.dropWhile_sublist (l := cs) isBlank).length_le
  rw [hcs] at hle
  dsimp only at h
  split at h
  · next hend =>
      cases h
      exact Or.inl ⟨rfl, tail, by rw [hend]⟩
  split at h
  · have hlt := (closed_readKey (fail_ne_ok _)).takes _ _ _ h
    exact Or.inr ⟨isSome_of_readKey (fail_ne_ok _) h, Nat.lt_of_lt_of_le hlt hle⟩
  split at h
  · have hkey : keyAfterComma tail = .ok (key?, mid) := h
    have hlt := closed_keyAfterComma.takes _ _ _ hkey
    refine Or.inr ⟨isSome_of_readKey noKeyAfterComma_ne_ok hkey, ?_⟩
    simp only [List.length_cons] at hle
    omega
  · cases h

theorem closed_colon : Closed colon := by
  refine closed_ahead ⟨fun _ h => (by cases h), fun c => from_ite (fun _ => ?_) fun _ => ?_⟩
  · exact from_take (closed_map closed_one _)
  · exact from_keep (closed_refuse _)

/-! ## Lists and objects -/

section

variable {α σ : Type}

/-- Fuel for every character that the list takes is enough. -/
theorem itemsFrom_closed {item : Reader α} (hitem : Advances item) {fuel i : Nat} {cs rest : List Char}
    {xs : List α} (h : itemsFrom item fuel i cs = .ok (xs, rest)) :
    ∃ front, front ≠ [] ∧ cs = front ++ rest ∧
      ∀ other fuel', front.length ≤ fuel' → itemsFrom item fuel' i (front ++ other) = .ok (xs, other) := by
  induction fuel generalizing i cs xs with
  | zero => cases h
  | succ fuel ih =>
      rw [itemsFrom] at h
      obtain ⟨more, mid, hmore, h⟩ := bind_eq_ok.1 h
      obtain ⟨front, rfl, hfront⟩ := local_nextItem _ _ _ _ hmore
      cases more with
      | false =>
          obtain ⟨tail, -, rfl⟩ := eq_cons_of_nextItem hmore
          cases h
          refine ⟨front ++ [']'], by simp, by simp, fun other fuel' hfuel => ?_⟩
          obtain ⟨fuel', rfl⟩ : ∃ k, fuel' = k + 1 := ⟨fuel' - 1, by simp at hfuel; omega⟩
          rw [itemsFrom, List.append_assoc]
          exact bind_eq_ok.2 ⟨false, ']' :: other, hfront _ rfl, rfl⟩
      | true =>
          obtain ⟨x, mid', hx, h⟩ := bind_eq_ok.1 h
          obtain ⟨xs, mid'', hxs, h⟩ := bind_eq_ok.1 h
          cases h
          have hx' := under_eq_ok.1 hx
          obtain ⟨middle, rfl, hmiddle⟩ := hitem.isLocal _ _ _ hx'
          obtain ⟨back, hne, rfl, hback⟩ := ih hxs
          have hlength := hitem.takes _ _ _ hx'
          simp only [List.length_append] at hlength
          have htaken : middle ≠ [] := fun h => by simp [h] at hlength
          -- an item takes a character at least, which pays for the round that it needs
          refine ⟨front ++ (middle ++ back), by simp [hne], by simp, fun other fuel' hfuel => ?_⟩
          simp only [List.length_append] at hfuel hlength
          have := List.length_pos_of_ne_nil htaken
          obtain ⟨fuel', rfl⟩ : ∃ k, fuel' = k + 1 := ⟨fuel' - 1, by omega⟩
          rw [itemsFrom, List.append_assoc, List.append_assoc]
          refine bind_eq_ok.2 ⟨true, _, hfront _ (head?_of_ne_nil htaken), ?_⟩
          refine bind_eq_ok.2 ⟨x, _, under_eq_ok.2 (hmiddle _ (head?_of_ne_nil hne)), ?_⟩
          exact bind_eq_ok.2 ⟨xs, other, hback other fuel' (by omega), rfl⟩

theorem closed_listOf {item : Reader α} (hitem : Advances item) : Closed (listOf item) := by
  intro cs xs rest hrun
  have hitems : itemsFrom item _ 0 cs = .ok (xs, rest) := hrun
  obtain ⟨front, hne, hcs, hfront⟩ := itemsFrom_closed hitem hitems
  exact ⟨front, hne, hcs, fun other => hfront other _ (by simp only [List.length_append]; omega)⟩

/-- Fuel for every character that the object takes is enough. -/
theorem membersFrom_closed {member : σ → String → Reader σ} (hmember : ∀ s key, Local (member s key))
    {fuel : Nat} {first : Bool} {cs rest : List Char} {s s' : σ}
    (h : membersFrom member fuel first s cs = .ok (s', rest)) :
    ∃ front, front ≠ [] ∧ cs = front ++ rest ∧ ∀ other fuel', front.length ≤ fuel' →
      membersFrom member fuel' first s (front ++ other) = .ok (s', other) := by
  induction fuel generalizing first cs s with
  | zero => cases h
  | succ fuel ih =>
      rw [membersFrom] at h
      obtain ⟨key?, mid, hkey, h⟩ := bind_eq_ok.1 h
      obtain ⟨front, rfl, hfront⟩ := local_nextKey _ _ _ _ hkey
      rcases nextKey_eq_ok hkey with ⟨rfl, tail, rfl⟩ | ⟨hsome, hlength⟩
      · cases h
        refine ⟨front ++ ['\x7d'], by simp, by simp, fun other fuel' hfuel => ?_⟩
        obtain ⟨fuel', rfl⟩ : ∃ k, fuel' = k + 1 := ⟨fuel' - 1, by simp at hfuel; omega⟩
        rw [membersFrom, List.append_assoc]
        exact bind_eq_ok.2 ⟨none, '\x7d' :: other, hfront _ rfl, rfl⟩
      · obtain ⟨key, rfl⟩ := Option.isSome_iff_exists.1 hsome
        obtain ⟨s₁, mid', hs₁, hrest⟩ := bind_eq_ok.1 h
        obtain ⟨middle, rfl, hmiddle⟩ := hmember _ _ _ _ _ hs₁
        obtain ⟨back, hne, rfl, hback⟩ := ih hrest
        refine ⟨front ++ (middle ++ back), by simp [hne], by simp, fun other fuel' hfuel => ?_⟩
        simp only [List.length_append] at hfuel hlength
        obtain ⟨fuel', rfl⟩ : ∃ k, fuel' = k + 1 := ⟨fuel' - 1, by omega⟩
        -- the key has taken something: it pays for this round, and the rest of the object for the others
        have hmid : middle ++ back ≠ [] := by simp [hne]
        have hnext := hfront (middle ++ back ++ other)
          (by rw [← List.append_assoc]; exact head?_of_ne_nil hmid)
        rw [membersFrom, List.append_assoc]
        refine bind_eq_ok.2 ⟨some key, _, hnext, ?_⟩
        rw [List.append_assoc]
        refine bind_eq_ok.2 ⟨s₁, _, hmiddle _ (head?_of_ne_nil hne), hback other fuel' (by omega)⟩

theorem closed_foldMembers {member : σ → String → Reader σ} (hmember : ∀ s key, Local (member s key))
    (start : σ) : Closed (foldMembers start member) := by
  intro cs s rest hrun
  have hmembers : membersFrom member _ true start cs = .ok (s, rest) := hrun
  obtain ⟨front, hne, hcs, hfront⟩ := membersFrom_closed hmember hmembers
  exact ⟨front, hne, hcs, fun other => hfront other _ (by simp only [List.length_append]; omega)⟩

theorem closed_tableOf {value : Reader α} (hvalue : Local value) : Closed (tableOf value) := by
  refine closed_foldMembers (fun table key => ?_) []
  exact local_bind closed_colon.local fun _ => local_bind (local_under _ hvalue) fun v => local_pure _

end

/-! ## Values -/

theorem advances_readerWith {nested : Option (Reader Json)} (hnested : ∀ m, nested = some m → Advances m) :
    Advances (readerWith nested) := by
  refine advances_ahead ⟨fun _ h => (by cases h), fun c => ?_⟩
  have hone {m : Reader Json} (hm : Local m) : Advances (one >>= fun _ => m) :=
    advances_bind closed_one.advances fun _ => hm
  have hword (ws : List Char) (j : Json) : Local (do scan (readWord ws); return j) :=
    local_bind (local_scan (localScan_readWord ws)) fun _ => local_pure j
  have hrefuse (f : Fault) : Advances (refuse f : Reader Json) := (closed_refuse f).advances
  refine from_ite (fun _ => from_take (hone (hword _ _))) fun _ => ?_
  refine from_ite (fun _ => from_take (hone (hword _ _))) fun _ => ?_
  refine from_ite (fun _ => from_take (hone (hword _ _))) fun _ => ?_
  refine from_ite (fun _ => from_take (hone ?_)) fun _ => ?_
  · exact local_bind (advances_readNumber true).isLocal fun _ => local_pure _
  refine from_ite (fun _ => from_keep ?_) fun _ => ?_
  · exact advances_bind (advances_readNumber false) fun _ => local_pure _
  refine from_ite (fun _ => from_take (hone (closed_map closed_readText _).local)) fun _ => ?_
  -- a bracket is refused at the lowest level and read by the level below at the others
  refine from_ite (fun _ => ?_) fun _ => from_ite (fun _ => ?_) fun _ => from_keep (hrefuse _)
  · cases nested with
    | none => exact from_keep (hrefuse _)
    | some m => exact from_take (hone (closed_map (closed_listOf (hnested m rfl)) _).local)
  · cases nested with
    | none => exact from_keep (hrefuse _)
    | some m => exact from_take (hone (closed_map (closed_tableOf (hnested m rfl).isLocal) _).local)

/-- **Values are read locally**: what follows a value but for its first character has no influence on it. -/
theorem advances_reader (levels : Nat) : Advances (reader levels) := by
  induction levels with
  | zero => exact advances_readerWith fun _ h => by cases h
  | succ levels ih => exact advances_readerWith fun _ h => by cases h; exact ih

end SchemaTyping.Json
