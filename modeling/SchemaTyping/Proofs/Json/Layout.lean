import SchemaTyping.Proofs.Json.Integers
import SchemaTyping.Proofs.Json.Quoting
import SchemaTyping.Proofs.Json.Shapes

set_option autoImplicit false

/-! # Layouts

The same value can be laid out in many ways: between its parts there may be blanks. `Laid j cs rest` states
that the text `cs` starts with the value, as `compact` writes it but for the blanks, and goes on with
`rest`; the text without any blanks is one of its layouts (`laid_compact`).

The readers of known shapes do not depend on the layout. For records this holds if it does for each of the
members: whatever order they stand in, the record is the fold of what each member assigns
(`recordReader_of_laid`). -/

namespace SchemaTyping.Json

open Reader

/-- Blanks, and then the rest. -/
def Gap (cs rest : List Char) : Prop := ∃ blanks, cs = blanks ++ rest ∧ ∀ c ∈ blanks, isBlank c = true

/-- What stands in front of an item or a member: a comma, but for the first one. -/
inductive Lead : Bool → List Char → List Char → Prop where
  | first {cs : List Char} : Lead true cs cs
  | comma {cs rest : List Char} (h : Gap cs (',' :: rest)) : Lead false cs rest

/-- A value without parts. -/
def IsScalar : Json → Prop
  | .list _ => False
  | .object _ => False
  | _ => True

mutual

/-- The text starts with the value, in any layout, and goes on with the rest. -/
inductive Laid : Json → List Char → List Char → Prop where
  | scalar {j : Json} {cs rest : List Char} (hj : j.IsScalar) (h : Gap cs (compactChars j ++ rest)) :
      Laid j cs rest
  | list {items : List Json} {cs inner rest : List Char} (h : Gap cs ('[' :: inner))
      (hitems : LaidItems true items inner rest) : Laid (.list items) cs rest
  | object {members : List (String × Json)} {cs inner rest : List Char} (h : Gap cs ('\x7b' :: inner))
      (hmembers : LaidMembers true members inner rest) : Laid (.object members) cs rest

/-- The items of a list and its closing bracket. -/
inductive LaidItems : Bool → List Json → List Char → List Char → Prop where
  | nil {first : Bool} {cs rest : List Char} (h : Gap cs (']' :: rest)) : LaidItems first [] cs rest
  | cons {first : Bool} {item : Json} {items : List Json} {cs start after rest : List Char}
      (hlead : Lead first cs start) (hitem : Laid item start after)
      (hitems : LaidItems false items after rest) : LaidItems first (item :: items) cs rest

/-- The members of an object and its closing brace. -/
inductive LaidMembers : Bool → List (String × Json) → List Char → List Char → Prop where
  | nil {first : Bool} {cs rest : List Char} (h : Gap cs ('\x7d' :: rest)) : LaidMembers first [] cs rest
  | cons {first : Bool} {key : String} {value : Json} {members : List (String × Json)}
      {cs start mid inner after rest : List Char} (hlead : Lead first cs start)
      (hkey : Gap start (quotedChars key ++ mid)) (hcolon : Gap mid (':' :: inner))
      (hvalue : Laid value inner after) (hmembers : LaidMembers false members after rest) :
      LaidMembers first ((key, value) :: members) cs rest

end

/-! ## The text without blanks -/

theorem Gap.refl (cs : List Char) : Gap cs cs := ⟨[], rfl, by simp⟩

theorem lead_compact (first : Bool) (cs : List Char) :
    Lead first ((if first then [] else [',']) ++ cs) cs := by
  cases first with
  | true => exact .first
  | false => exact .comma (Gap.refl _)

mutual

theorem laid_compactChars (j : Json) (rest : List Char) : Laid j (compactChars j ++ rest) rest := by
  cases j with
  | list items =>
      have hitems := laidItems_compactItems true items rest
      exact .list (Gap.refl _) (by simpa [compactChars] using hitems)
  | object members =>
      have hmembers := laidMembers_compactMembers true members rest
      refine .object (Gap.refl _) ?_
      simpa [compactChars] using hmembers
  | _ => exact .scalar trivial (Gap.refl _)

theorem laidItems_compactItems (first : Bool) (items : List Json) (rest : List Char) :
    LaidItems first items (compactItems first items ++ ']' :: rest) rest := by
  cases items with
  | nil => exact .nil (Gap.refl _)
  | cons item items =>
      have hitem := laid_compactChars item (compactItems false items ++ ']' :: rest)
      have hitems := laidItems_compactItems false items rest
      simp only [compactItems, List.append_assoc]
      exact .cons (lead_compact first _) hitem hitems

theorem laidMembers_compactMembers (first : Bool) (members : List (String × Json)) (rest : List Char) :
    LaidMembers first members (compactMembers first members ++ '\x7d' :: rest) rest := by
  cases members with
  | nil => exact .nil (Gap.refl _)
  | cons member members =>
      obtain ⟨key, value⟩ := member
      have hvalue := laid_compactChars value (compactMembers false members ++ '\x7d' :: rest)
      have hmembers := laidMembers_compactMembers false members rest
      simp only [compactMembers, List.append_assoc, List.cons_append]
      exact .cons (lead_compact first _) (Gap.refl _) (Gap.refl _) hvalue hmembers

end

/-- The text without blanks is a layout. -/
theorem laid_compact (j : Json) : Laid j (compact j).toList [] := by
  have h := laid_compactChars j []
  rwa [List.append_nil, ← String.toList_ofList (l := compactChars j)] at h

/-! ## Behind the blanks -/

theorem Gap.dropWhile {cs rest : List Char} (h : Gap cs rest) :
    cs.dropWhile isBlank = rest.dropWhile isBlank := by
  obtain ⟨blanks, rfl, hblanks⟩ := h
  exact List.dropWhile_append_of_pos hblanks

theorem Gap.dropWhile_cons {cs rest : List Char} {c : Char} (h : Gap cs (c :: rest))
    (hc : isBlank c = false) : cs.dropWhile isBlank = c :: rest := by
  rw [h.dropWhile]
  simp [hc]

/-- Neither a blank nor a comma or a bracket goes on with a numeral. -/
theorem Gap.endsNumeral {cs rest : List Char} {c : Char} (h : Gap cs (c :: rest))
    (hc : c = ',' ∨ c = ']' ∨ c = '\x7d') : EndsNumeral cs := by
  have hblank (d : Char) (hd : isBlank d = true) :
      d.isDigit = false ∧ d ≠ '.' ∧ d ≠ 'e' ∧ d ≠ 'E' := by
    simp only [isBlank, Bool.or_eq_true, decide_eq_true_eq] at hd
    obtain ((rfl | rfl) | rfl) | rfl := hd <;> decide
  obtain ⟨blanks, rfl, hblanks⟩ := h
  intro d hd
  cases blanks with
  | nil =>
      cases hd
      obtain rfl | rfl | rfl := hc <;> decide
  | cons b blanks =>
      cases hd
      exact hblank _ (hblanks _ List.mem_cons_self)

theorem Gap.length_le {cs rest : List Char} (h : Gap cs rest) : rest.length ≤ cs.length := by
  obtain ⟨blanks, rfl, -⟩ := h
  simp

theorem Lead.length_le {first : Bool} {cs rest : List Char} (h : Lead first cs rest) :
    rest.length ≤ cs.length := by
  cases h with
  | first => exact Nat.le_refl _
  | comma h => exact Nat.le_of_succ_le h.length_le

mutual

theorem Laid.length_le {j : Json} {cs rest : List Char} : Laid j cs rest → rest.length ≤ cs.length
  | .scalar _ h => by
      have hlength := h.length_le
      rw [List.length_append] at hlength
      omega
  | .list h hitems => by
      have hlength := h.length_le
      have hinner := hitems.length_lt
      simp only [List.length_cons] at hlength
      omega
  | .object h hmembers => by
      have hlength := h.length_le
      have hinner := hmembers.length_lt
      simp only [List.length_cons] at hlength
      omega

theorem LaidItems.length_lt {first : Bool} {items : List Json} {cs rest : List Char} :
    LaidItems first items cs rest → rest.length < cs.length
  | .nil h => h.length_le
  | .cons hlead hitem hitems => by
      have hstart := hlead.length_le
      have hafter := hitem.length_le
      have hothers := hitems.length_lt
      omega

/-- Every member takes its part of the text. -/
theorem LaidMembers.length_lt {first : Bool} {members : List (String × Json)} {cs rest : List Char} :
    LaidMembers first members cs rest → members.length + rest.length < cs.length
  | .nil h => by
      have hlength := h.length_le
      simp only [List.length_nil, List.length_cons] at hlength ⊢
      omega
  | .cons hlead hkey hcolon hvalue hmembers => by
      have hstart := hlead.length_le
      have hmid := hkey.length_le
      have hinner := hcolon.length_le
      have hafter := hvalue.length_le
      have hothers := hmembers.length_lt
      simp only [List.length_append, List.length_cons] at hmid hinner ⊢
      omega

end

theorem LaidMembers.endsNumeral {members : List (String × Json)} {cs rest : List Char}
    (h : LaidMembers false members cs rest) : EndsNumeral cs := by
  cases h with
  | nil h => exact h.endsNumeral (.inr (.inr rfl))
  | cons hlead =>
      cases hlead with
      | comma h => exact h.endsNumeral (.inl rfl)

/-! ## Scalars -/

section

variable {cs rest : List Char}

theorem Laid.gap_scalar {j : Json} (h : Laid j cs rest) (hj : j.IsScalar) :
    Gap cs (compactChars j ++ rest) := by
  cases h with
  | scalar _ h => exact h
  | list => exact hj.elim
  | object => exact hj.elim

theorem Gap.readText {s : String} (h : Gap cs (quotedChars s ++ rest)) :
    ∃ tail, cs.dropWhile isBlank = '"' :: tail ∧ Json.readText tail = .ok (s.toList, rest) := by
  obtain ⟨tail, hquoted, hread⟩ := quotedChars_append s rest
  rw [hquoted] at h
  exact ⟨tail, h.dropWhile_cons rfl, hread⟩

theorem stringReader_of_gap {s : String} (h : Gap cs (quotedChars s ++ rest)) :
    stringReader cs = .ok (s, rest) := by
  obtain ⟨tail, hcs, hread⟩ := h.readText
  rw [stringReader_quote hcs]
  refine bind_eq_ok.2 ⟨s.toList, rest, scan_eq_ok.2 hread, ?_⟩
  rw [String.ofList_toList]
  rfl

theorem stringReader_of_laid {s : String} (h : Laid (.text s) cs rest) :
    stringReader cs = .ok (s, rest) := stringReader_of_gap (h.gap_scalar trivial)

theorem boolReader_of_laid {b : Bool} (h : Laid (.boolean b) cs rest) :
    boolReader cs = .ok (b, rest) := by
  have hgap := h.gap_scalar trivial
  cases b with
  | true =>
      rw [boolReader, ahead_bind, hgap.dropWhile_cons rfl]
      exact bind_eq_ok.2 ⟨(), _, rfl, bind_eq_ok.2 ⟨(), rest, scan_eq_ok.2 (readWord_eq_ok.2 rfl), rfl⟩⟩
  | false =>
      rw [boolReader, ahead_bind, hgap.dropWhile_cons rfl]
      exact bind_eq_ok.2 ⟨(), _, rfl, bind_eq_ok.2 ⟨(), rest, scan_eq_ok.2 (readWord_eq_ok.2 rfl), rfl⟩⟩

theorem countReader_of_laid {n : Nat} (h : Laid (.number (.integer n)) cs rest) (hn : n < 1 <<< 64)
    (hrest : EndsNumeral rest) : countReader cs = .ok (n, rest) :=
  countReader_integer hn (h.gap_scalar trivial).dropWhile hrest

theorem choiceReader_of_laid {α : Type} {choices : Table α} {name : String} {choice : α}
    (h : Laid (.text name) cs rest) (hchoice : choices.get? name = some choice) :
    choiceReader choices cs = .ok (choice, rest) := by
  obtain ⟨tail, hcs, -⟩ := (h.gap_scalar trivial).readText
  rw [choiceReader_text hcs]
  refine bind_eq_ok.2 ⟨name, rest, stringReader_of_laid h, ?_⟩
  rw [choose, hchoice]
  rfl

end

/-! ## Records -/

section

variable {cs rest : List Char}

/-- The key of the next member is read with what stands in front of it. -/
theorem nextKey_of_lead {first : Bool} {start mid : List Char} {key : String}
    (hlead : Lead first cs start) (hkey : Gap start (quotedChars key ++ mid)) :
    nextKey first cs = .ok (some key, mid) := by
  cases hlead with
  | first => exact nextKey_of_stringReader (stringReader_of_gap hkey)
  | comma hcomma =>
      obtain ⟨tail, hstart, hread⟩ := hkey.readText
      refine under_eq_ok.2 ?_
      rw [ahead_bind, hcomma.dropWhile_cons rfl]
      have hrun (starting : Reader (Option String)) : readKey starting start = .ok (some key, mid) := by
        rw [readKey, ahead_bind, hstart]
        refine bind_eq_ok.2 ⟨(), tail, rfl, bind_eq_ok.2 ⟨_, mid, scan_eq_ok.2 hread, ?_⟩⟩
        rw [String.ofList_toList]
        rfl
      exact bind_eq_ok.2 ⟨(), start, rfl, hrun _⟩

theorem colon_of_gap (h : Gap cs (':' :: rest)) : colon cs = .ok ((), rest) := by
  rw [colon, ahead_bind, h.dropWhile_cons rfl]
  rfl

variable {σ : Type} {names : List String} {field : σ → String → Reader σ} {assign : σ → String → σ}

/-- However the value of a member is laid out, its reader assigns the member to the record. -/
def Assigns (field : σ → String → Reader σ) (assign : σ → String → σ)
    (member : String × Json) : Prop :=
  ∀ s cs rest, Laid member.2 cs rest → EndsNumeral rest →
    field s member.1 cs = .ok (assign s member.1, rest)

/-- A member whose reader stores what it reads. -/
theorem assigns_of_reads {α : Type} {key : String} {value : Json} {r : Reader α} {a : α}
    (put : σ → α → σ) (hfield : ∀ s, field s key = do return put s (← r))
    (hreads : ∀ cs rest, Laid value cs rest → EndsNumeral rest → r cs = .ok (a, rest))
    (hassign : ∀ s, assign s key = put s a) : Assigns field assign (key, value) := by
  intro s cs rest hvalue hrest
  dsimp only
  rw [hfield, hassign]
  exact bind_eq_ok.2 ⟨a, rest, hreads cs rest hvalue hrest, rfl⟩

theorem assigns_text {key text : String} (put : σ → String → σ)
    (hfield : ∀ s, field s key = do return put s (← stringReader))
    (hassign : ∀ s, assign s key = put s text) : Assigns field assign (key, .text text) :=
  assigns_of_reads put hfield (fun _ _ h _ => stringReader_of_laid h) hassign

theorem membersFrom_of_laid {members : List (String × Json)}
    (hassigns : ∀ member ∈ members, member.1 ∈ names ∧ Assigns field assign member)
    (hdistinct : (Table.names members).Nodup) {seen : List String}
    (hseen : ∀ key ∈ Table.names members, key ∉ seen) {first : Bool} {fuel : Nat}
    (hfuel : members.length < fuel) (h : LaidMembers first members cs rest) (s : σ) :
    ∃ seen', membersFrom (recordMember names field) fuel first (s, seen) cs
      = .ok (((Table.names members).foldl assign s, seen'), rest) := by
  induction members generalizing cs first fuel s seen with
  | nil =>
      obtain ⟨fuel, rfl⟩ : ∃ k, fuel = k + 1 := ⟨fuel - 1, by simp at hfuel; omega⟩
      cases h with
      | nil h =>
          refine ⟨seen, ?_⟩
          rw [membersFrom]
          exact bind_eq_ok.2 ⟨none, _, nextKey_of_brace (h.dropWhile_cons rfl) first, rfl⟩
  | cons member members ih =>
      obtain ⟨fuel, rfl⟩ : ∃ k, fuel = k + 1 := ⟨fuel - 1, by omega⟩
      obtain ⟨⟨hname, hassign⟩, hothers⟩ := List.forall_mem_cons.1 hassigns
      obtain ⟨hnew, hdistinct'⟩ := List.nodup_cons.1 hdistinct
      obtain ⟨hfirst, hunseen⟩ := List.forall_mem_cons.1 hseen
      cases h with
      | @cons _ key value _ _ start mid inner after _ hlead hkey hcolon hvalue hmembers =>
          have hmember : recordMember names field (s, seen) key mid
              = .ok ((assign s key, key :: seen), after) := by
            unfold recordMember
            dsimp only
            rw [if_neg (not_not_intro hname), if_neg hfirst]
            refine bind_eq_ok.2 ⟨(), inner, colon_of_gap hcolon, ?_⟩
            have hfield := hassign s inner after hvalue hmembers.endsNumeral
            exact bind_eq_ok.2 ⟨_, after, under_eq_ok.2 hfield, rfl⟩
          have hseen' : ∀ other ∈ Table.names members, other ∉ key :: seen := by
            intro other hother hmem
            rcases List.mem_cons.1 hmem with rfl | hmem
            · exact hnew hother
            · exact hunseen other hother hmem
          obtain ⟨seen', hrest⟩ := ih hothers hdistinct' hseen' (Nat.lt_of_succ_lt_succ hfuel) hmembers
            (assign s key)
          refine ⟨seen', ?_⟩
          rw [membersFrom]
          exact bind_eq_ok.2 ⟨some key, mid, nextKey_of_lead hlead hkey,
            bind_eq_ok.2 ⟨_, after, hmember, hrest⟩⟩

/-- **A record does not depend on the layout of its text**: it is what its members assign one after the
    other. -/
theorem recordReader_of_laid {members : List (String × Json)}
    (hassigns : ∀ member ∈ members, member.1 ∈ names ∧ Assigns field assign member)
    (hdistinct : (Table.names members).Nodup) (h : Laid (.object members) cs rest) (wanted : String)
    (start : σ) :
    recordReader wanted names start field cs = .ok ((Table.names members).foldl assign start, rest) := by
  cases h with
  | scalar hj => exact hj.elim
  | @object _ _ inner _ hgap hmembers =>
      have hlength := hmembers.length_lt
      have hfuel : members.length < inner.length + 1 := by omega
      obtain ⟨seen', hrun⟩ := membersFrom_of_laid hassigns hdistinct (fun _ _ => List.not_mem_nil) hfuel
        hmembers start
      rw [recordReader_object (hgap.dropWhile_cons rfl)]
      exact bind_eq_ok.2 ⟨_, rest, hrun, rfl⟩

end

end SchemaTyping.Json
