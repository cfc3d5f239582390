import SchemaTyping.Proofs.Generation.Declaring
import SchemaTyping.Proofs.Resolution.Comparison

set_option autoImplicit false

/-! # Raising the nesting limit

The limit only ever ends a resolution: an outcome that is not its error is the same under every higher limit,
and so is a generation that leaves no field out for it (`raised_limit_keeps`).

`Resolver.Stands` says so of two outcomes. The resolvers with the lower and the higher limit only disagree
where the first comes to its limit, so they are `Resolver.Comparable` with the error of the limit set aside. -/

namespace SchemaTyping

/-- The error of a nesting beyond the limit. -/
def ResolveError.IsCyclic (e : ResolveError) : Prop := ∃ path limit, e = .cyclic path limit

namespace Resolver

/-! ## Outcomes that stand -/

section

variable {α : Type} {x y : Except ResolveError α}

/-- The second outcome is the first, unless the first fails for the limit. -/
def Stands (x y : Except ResolveError α) : Prop := (∀ e, x = .error e → ¬e.IsCyclic) → y = x

theorem stands_of_agreeUnless (h : Outcome.AgreeUnless ResolveError.IsCyclic x y) : Stands x y := by
  intro hother
  rcases h with ⟨e, he, hcyclic⟩ | heq
  · exact absurd hcyclic (hother e he)
  · exact heq

theorem Stands.eq_of_ok (h : Stands x y) {a : α} (hx : x = .ok a) : y = .ok a := by
  subst hx
  exact h fun e he => nomatch he

theorem Stands.eq_of_error (h : Stands x y) {e : ResolveError} (hx : x = .error e)
    (hother : ¬e.IsCyclic) : y = .error e := by
  subst hx
  exact h fun e' he' => Except.error.inj he' ▸ hother

end

/-! ## All levels -/

section

variable {M : Registry} {o : Options} {depth : Nat}

/-- Only the error of the last level reads the limit. -/
theorem comparable_maxDepth (M : Registry) (o : Options) (depth : Nat) :
    Comparable ResolveError.IsCyclic ⟨M, o⟩ ⟨M, { o with maxDepth := depth }⟩ where
  wildcardSegment := rfl
  scalarNames := rfl
  instances _ := rfl
  references _ _ := .refl _

theorem levelsAgree_maxDepth {levels levels' : Nat} (hle : levels ≤ levels') :
    LevelsAgree ResolveError.IsCyclic (typeAt ⟨M, o⟩ levels)
      (typeAt ⟨M, { o with maxDepth := depth }⟩ levels') :=
  (comparable_maxDepth M o depth).typeAt_le (fun path limit => ⟨path, limit, rfl⟩) hle

/-- Fields that are found with some levels are found with more. -/
theorem fieldsBelow_mono {r : Resolver} {levels levels' : Nat} (hle : levels ≤ levels')
    {d : Definition} {parent : String} {fields : List (Field TypeExpr)}
    (h : r.fieldsBelow (r.typeAt levels) d parent = .ok fields) :
    r.fieldsBelow (r.typeAt levels') d parent = .ok fields := by
  have hcomparable := comparable_maxDepth r.registry r.options r.options.maxDepth
  exact (stands_of_agreeUnless
    (hcomparable.fieldsBelow (levelsAgree_maxDepth hle) rfl parent)).eq_of_ok h

variable (h : o.depthLimit ≤ Options.depthLimit { o with maxDepth := depth })
include h

theorem resolve_stands (path : String) (d : Definition) :
    Stands (resolve ⟨M, o⟩ path d) (resolve ⟨M, { o with maxDepth := depth }⟩ path d) :=
  stands_of_agreeUnless ((levelsAgree_maxDepth (Nat.succ_le_succ h) d d rfl path).map _)

theorem resolveField_stands (path : String) (d : Definition) :
    Stands (resolveField ⟨M, o⟩ path d) (resolveField ⟨M, { o with maxDepth := depth }⟩ path d) :=
  stands_of_agreeUnless ((levelsAgree_maxDepth (Nat.succ_le_succ h) d d rfl _).bind fun _ => .refl _)

/-! ## Declarations -/

/-- The fields of a definition stand with their reports, if none of these is for the limit. -/
theorem keyFields_stand {typeName : String} {d : Definition} {keys : List String}
    {fields : List (Field TypeExpr)} {skipped : List Diagnostic}
    (hkeys : keyFields ⟨M, o⟩ typeName d keys = .ok (fields, skipped))
    (hother : ∀ key cause, .skippedField typeName key cause ∈ skipped → ¬cause.IsCyclic) :
    keyFields ⟨M, { o with maxDepth := depth }⟩ typeName d keys = .ok (fields, skipped) := by
  induction keys generalizing fields skipped with
  | nil => exact hkeys
  | cons key keys ih =>
      have hstands := resolveField_stands (M := M) h key d
      obtain ⟨fields', skipped', hrest, ⟨field, hfield, rfl, rfl⟩ | ⟨cause, hcause, hskip, rfl, rfl⟩⟩ :=
        keyFields_cons_eq_ok.1 hkeys
      · refine keyFields_cons_eq_ok.2 ⟨fields', _, ih hrest hother, Or.inl ⟨field, ?_, rfl, rfl⟩⟩
        exact hstands.eq_of_ok hfield
      · have hrest := ih hrest fun key cause hmem => hother key cause (List.mem_cons_of_mem _ hmem)
        refine keyFields_cons_eq_ok.2 ⟨_, skipped', hrest, Or.inr ⟨cause, ?_, hskip, rfl, rfl⟩⟩
        exact hstands.eq_of_error hcause (hother key cause List.mem_cons_self)

theorem declare_stands {name : String} {id : InstanceId} {declared : Declaration}
    {skipped : List Diagnostic} (hdeclare : declare ⟨M, o⟩ name id = .ok (declared, skipped))
    (hother : ∀ key cause, .skippedField name key cause ∈ skipped → ¬cause.IsCyclic) :
    declare ⟨M, { o with maxDepth := depth }⟩ name id = .ok (declared, skipped) := by
  unfold declare at hdeclare ⊢
  split at hdeclare
  · next d held =>
      obtain ⟨⟨fields, reports⟩, hkeys, hdeclare⟩ := Outcome.bind_eq_ok.1 hdeclare
      cases hdeclare
      simp only [held]
      exact Outcome.bind_eq_ok.2 ⟨_, keyFields_stand h hkeys hother, rfl⟩
  · next values held =>
      simp only [held]
      exact hdeclare
  · cases hdeclare

end

end Resolver

/-- **Raising the nesting limit changes no answer that is not the error of the limit.** The type of a field,
    or the other error it has, stays as it is, and so does everything that is generated, if no field is left
    out for the limit. -/
theorem raised_limit_keeps (M : Registry) (o : Options) (depth : Nat)
    (h : o.depthLimit ≤ Options.depthLimit { o with maxDepth := depth }) :
    (∀ (d : Definition) (path : String),
      (∀ at' limit, Resolver.resolve ⟨M, o⟩ path d ≠ .error (.cyclic at' limit)) →
        Resolver.resolve ⟨M, { o with maxDepth := depth }⟩ path d
          = Resolver.resolve ⟨M, o⟩ path d) ∧
    ∀ g : Generated, generate M o = .ok g →
      (∀ typeName field path limit,
        .skippedField typeName field (.cyclic path limit) ∉ g.diagnostics) →
        generate M { o with maxDepth := depth } = .ok g := by
  constructor
  · intro d path hother
    refine Resolver.resolve_stands h path d fun e he hcyclic => ?_
    obtain ⟨at', limit, rfl⟩ := hcyclic
    exact hother at' limit he
  · intro g hg hother
    obtain ⟨results, hresults, hg⟩ := Outcome.bind_eq_ok.1 hg
    cases hg
    refine Outcome.bind_eq_ok.2 ⟨results, ?_, rfl⟩
    rw [← hresults]
    refine Outcome.mapM_congr fun entry hentry => ?_
    obtain ⟨⟨declared, skipped⟩, hmem, hdeclare⟩ :=
      Outcome.exists_mem_of_mapM_eq_ok hresults entry hentry
    rw [hdeclare]
    refine Resolver.declare_stands h hdeclare fun key cause hreport hcyclic => ?_
    obtain ⟨path, limit, rfl⟩ := hcyclic
    exact hother _ _ _ _
      (List.mem_append_right _ (List.mem_flatMap.2 ⟨(declared, skipped), hmem, hreport⟩))

/-- A shelf holds books without a name of their own. Only a part of its owner is declared. -/
def shelf : Definition where
  rules :=
    [("books", Resolver.bareRuleOf .array []),
     ("books.$", Resolver.bareRuleOf (.nested ⟨1⟩) []),
     ("owner.name", Resolver.bareRuleOf (.scalar .text) [])]

@[inherit_doc shelf]
def library : Registry where
  instances :=
    [.schema shelf,
     .schema { rules :=
       [("title", Resolver.bareRuleOf (.scalar .text) [])] }]
  entries := [("Shelf", ⟨0⟩)]

/-- One level is not enough for the books, two are; and then, without its owner, the shelf is the same with
    any number of levels. -/
theorem raised_limit_keeps_library :
    Resolver.resolve ⟨library, { maxDepth := 1, missingFields := .skip }⟩ "books" shelf
      = .error (.cyclic "title" 1) ∧
    Resolver.resolve ⟨library, { maxDepth := 64, missingFields := .skip }⟩ "books" shelf
      = .ok (.array (.object [{ name := "title", type := .scalar "string", optional := false }])) ∧
    ∃ g, generate library { maxDepth := 2, missingFields := .skip } = .ok g ∧
      g.diagnostics = [.skippedField "Shelf" "owner" (.undeclared "owner")] ∧
      generate library { maxDepth := 64, missingFields := .skip } = .ok g := by
  have hkeeps := raised_limit_keeps library { maxDepth := 2, missingFields := .skip } 64 (by decide)
  have hbooks : Resolver.resolve ⟨library, { maxDepth := 2, missingFields := .skip }⟩ "books" shelf
      = .ok (.array (.object [{ name := "title", type := .scalar "string", optional := false }])) := by
    rfl
  refine ⟨rfl, ?_, ?_⟩
  · rw [← hbooks]
    exact hkeeps.1 shelf "books" fun at' limit h => nomatch hbooks.symm.trans h
  · refine ⟨_, rfl, rfl, hkeeps.2 _ rfl fun typeName field path limit h => ?_⟩
    obtain h := List.mem_singleton.1 h
    exact nomatch h

end SchemaTyping
