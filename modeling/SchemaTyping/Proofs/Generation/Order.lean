import SchemaTyping.Proofs.Resolution.Limit
import SchemaTyping.Proofs.Registry.Names
import SchemaTyping.Proofs.Resolution.Comparison

set_option autoImplicit false

/-! # The order of entries

The order in which entries are registered decides which of the names of an instance stands for it, which
declaration comes first and which refusal is reported. Where no instance has two names the first of these
is gone: the names of an instance are the same in every order (`Registry.namesOf_of_perm`), so the resolvers
of two orders declare every entry alike, and what is left is the order of the declarations and of their
reports (`generate_reordered`). -/

namespace SchemaTyping

namespace Registry

variable {M : Registry} {entries : Table InstanceId}

/-- The names of an instance with at most one name do not depend on the order of the entries. -/
theorem namesOf_of_perm (hperm : entries.Perm M.entries) {id : InstanceId}
    (hsingle : (M.namesOf id).length ≤ 1) : namesOf { M with entries } id = M.namesOf id := by
  have hnames : (namesOf { M with entries } id).Perm (M.namesOf id) := hperm.filterMap _
  match hof : M.namesOf id with
  | [] => exact List.perm_nil.1 (hof ▸ hnames)
  | [name] => exact List.perm_singleton.1 (hof ▸ hnames)
  | _ :: _ :: _ => simp [hof] at hsingle

theorem aliases_of_perm (hperm : entries.Perm M.entries) (hsingle : ∀ id, (M.namesOf id).length ≤ 1) :
    aliases { M with entries } = [] := by
  refine aliases_eq_nil_iff.2 fun id => ?_
  rw [namesOf_of_perm hperm (hsingle id)]
  exact hsingle id

end Registry

namespace Resolver

variable {M : Registry} {entries : Table InstanceId}

theorem comparable_of_perm (hperm : entries.Perm M.entries) (hsingle : ∀ id, (M.namesOf id).length ≤ 1)
    (o : Options) : Comparable (fun _ => False) ⟨M, o⟩ ⟨{ M with entries }, o⟩ where
  wildcardSegment := rfl
  scalarNames := rfl
  instances := fun _ => rfl
  references := by
    intro path id
    right
    simp only [referenceType, Registry.reference?_eq, Registry.namesOf_of_perm hperm (hsingle id)]

/-- The declaration of an entry and its reports; an entry that is refused has an empty one. -/
def declared (r : Resolver) (entry : String × InstanceId) : Declaration × List Diagnostic :=
  match r.declare entry.1 entry.2 with
  | .ok result => result
  | .error _ => ({ name := entry.1, type := .object [] }, [])

theorem declared_eq {r : Resolver} {entry : String × InstanceId} {result : Declaration × List Diagnostic}
    (h : r.declare entry.1 entry.2 = .ok result) : r.declared entry = result := by
  simp only [declared, h]

theorem name_declared (r : Resolver) (entry : String × InstanceId) : (r.declared entry).1.name = entry.1 := by
  unfold declared
  split
  · next h => exact name_of_declare h
  · rfl

end Resolver

/-! ## The pass -/

/-- The declarations, each with its text. -/
def Generated.items (g : Generated) : List (Declaration × String) :=
  g.declarations.map fun declaration => (declaration, declaration.render g.objectName)

section

variable {M : Registry} {o : Options}

theorem exists_generate_eq_ok_iff :
    (∃ g, generate M o = .ok g) ↔
      ∀ entry ∈ M.entries, ∃ result, Resolver.declare ⟨M, o⟩ entry.1 entry.2 = .ok result := by
  rw [← Outcome.exists_mapM_eq_ok_iff]
  constructor
  · rintro ⟨g, hg⟩
    obtain ⟨results, hresults, -⟩ := generate_eq_ok.1 hg
    exact ⟨results, hresults⟩
  · rintro ⟨results, hresults⟩
    exact ⟨_, generate_eq_ok.2 ⟨results, hresults, rfl⟩⟩

/-- What is generated, entry by entry. -/
theorem of_generate_eq_ok {g : Generated} (h : generate M o = .ok g) :
    g.items = M.entries.map (fun entry =>
        ((Resolver.declared ⟨M, o⟩ entry).1, (Resolver.declared ⟨M, o⟩ entry).1.render o.objectName)) ∧
      g.diagnostics = M.aliases.map .ambiguousReference ++
        M.entries.flatMap fun entry => (Resolver.declared ⟨M, o⟩ entry).2 := by
  obtain ⟨results, hresults, rfl⟩ := generate_eq_ok.1 h
  obtain rfl := Outcome.eq_map_of_mapM_eq_ok (fun _ _ => Resolver.declared_eq) hresults
  simp [Generated.items, Function.comp_def, List.flatMap_map]

end

/-- **The order of the entries is only presentation**, where no instance has two names. One order is
    generated exactly when another is; each entry then has the same declaration and the same text in both,
    at its own place, and the same is reported. -/
theorem generate_reordered {M : Registry} (hsingle : ∀ id, (M.namesOf id).length ≤ 1)
    {entries : Table InstanceId} (hperm : entries.Perm M.entries) (o : Options) :
    ((∃ g, generate M o = .ok g) ↔ ∃ g, generate { M with entries } o = .ok g) ∧
      ∀ g g', generate M o = .ok g → generate { M with entries } o = .ok g' →
        (∃ item : String × InstanceId → Declaration × String,
          (∀ entry, (item entry).1.name = entry.1) ∧
            g.items = M.entries.map item ∧ g'.items = entries.map item) ∧
        g'.diagnostics.Perm g.diagnostics := by
  have hdeclare (name : String) (id : InstanceId) :
      Resolver.declare ⟨{ M with entries }, o⟩ name id = Resolver.declare ⟨M, o⟩ name id :=
    (Resolver.comparable_of_perm hperm hsingle o).declare (fun _ => not_false) rfl rfl name id
  have hdeclared : Resolver.declared ⟨{ M with entries }, o⟩ = Resolver.declared ⟨M, o⟩ := by
    funext entry
    simp only [Resolver.declared, hdeclare]
  refine ⟨?_, fun g g' hg hg' => ?_⟩
  · simp only [exists_generate_eq_ok_iff, hdeclare]
    exact ⟨fun h entry hentry => h entry (hperm.mem_iff.1 hentry),
      fun h entry hentry => h entry (hperm.mem_iff.2 hentry)⟩
  · obtain ⟨hitems, hreports⟩ := of_generate_eq_ok hg
    obtain ⟨hitems', hreports'⟩ := of_generate_eq_ok hg'
    rw [hdeclared] at hitems' hreports'
    refine ⟨⟨_, fun entry => ?_, hitems, hitems'⟩, ?_⟩
    · exact Resolver.name_declared _ entry
    · rw [hreports, hreports', Registry.aliases_of_perm hperm hsingle,
        Registry.aliases_eq_nil_iff.2 hsingle]
      exact hperm.flatMap_right _

/-- A ship has a captain, and a home of which only a part is declared. -/
def fleet : Registry where
  instances :=
    [.schema { rules :=
       [("captain", Resolver.bareRuleOf (.nested ⟨1⟩) []),
        ("home.port", Resolver.bareRuleOf (.scalar .text) [])] },
     .schema { rules := [("name", Resolver.bareRuleOf (.scalar .text) [])] }]
  entries := [("Ship", ⟨0⟩), ("Captain", ⟨1⟩)]

/-- The captain may come first: the ship refers to it all the same, and is reported to have no home. -/
theorem generate_reordered_fleet :
    (∀ id, (fleet.namesOf id).length ≤ 1) ∧
      ∃ g g', generate fleet { missingFields := .skip } = .ok g ∧
        generate { fleet with entries := [("Captain", ⟨1⟩), ("Ship", ⟨0⟩)] } { missingFields := .skip }
          = .ok g' ∧
        g'.declarations.map (·.name) = ["Captain", "Ship"] ∧ g'.items.Perm g.items ∧
        g'.diagnostics.Perm [.skippedField "Ship" "home" (.undeclared "home")] := by
  have hsingle : ∀ id, (fleet.namesOf id).length ≤ 1 := Registry.aliases_eq_nil_iff.1 rfl
  have hperm : List.Perm [("Captain", ⟨1⟩), ("Ship", ⟨0⟩)] fleet.entries := .swap ..
  obtain ⟨-, hsame⟩ := generate_reordered hsingle hperm { missingFields := .skip }
  obtain ⟨⟨item, -, hitems, hitems'⟩, hreports⟩ := hsame _ _ rfl rfl
  refine ⟨hsingle, _, _, rfl, rfl, rfl, ?_, hreports⟩
  rw [hitems, hitems']
  exact hperm.map item

end SchemaTyping
