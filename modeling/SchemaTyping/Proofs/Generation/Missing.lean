import SchemaTyping.Proofs.Generation.Declaring
import SchemaTyping.Proofs.Registry.Closed

set_option autoImplicit false

/-! # Instances that are missing

In a closed registry nothing that resolution goes through leads out of it: the places one step away from a
definition whose ids are inside are in such definitions as well (`Resolver.Step.inside`). So no id is ever
reported as missing, and what is left to refuse a whole declaration is a value that is no literal
(`generate_eq_error_of_closed`). -/

namespace SchemaTyping

/-- The error reports an id that is not part of the registry. -/
def ResolveError.ReportsMissing (e : ResolveError) : Prop :=
  ∃ path id, e = .unclassified path (.missingInstance id)

/-- Every instance that the definition points to is there. -/
def Definition.Inside (d : Definition) (M : Registry) : Prop := ∀ id ∈ d.ids, M.Has id

theorem Registry.Closed.inside {M : Registry} (hM : M.Closed) {id : InstanceId} {d : Definition}
    (held : M.instance? id = some (.schema d)) : d.Inside M := hM.has_of_instance? held

namespace Resolver

variable {r : Resolver} {d : Definition} {path : String} {e : ResolveError}

theorem Step.inside (hr : r.registry.Closed) {a b : Place} (h : r.Step a b)
    (ha : a.1.Inside r.registry) : b.1.Inside r.registry := by
  cases h with
  | element => exact ha
  | field => exact ha
  | inline declared implicit listed unbound held below => exact hr.inside held

/-- A rule is not refused for an instance that it lists being missing. -/
theorem Refuses.not_reportsMissing {rule : Rule} (hd : d.Inside r.registry)
    (hrule : d.rule? path = some rule) (h : r.Refuses path rule e) : ¬ e.ReportsMissing := by
  rintro ⟨path', id, rfl⟩
  cases h with
  | missing listed absent =>
      obtain ⟨i, hi⟩ := (hd id (Definition.mem_ids_of_rule? hrule (Rule.mem_ids.2 listed))).exists_instance?
      rw [absent] at hi
      cases hi

theorem typeAt_not_reportsMissing (hr : r.registry.Closed) {levels : Nat}
    (hd : d.Inside r.registry) (h : r.typeAt levels d path = .error e) : ¬ e.ReportsMissing := by
  intro hmissing
  rcases origin_of_typeAt (a := (d, path)) h with ⟨path', limit, rfl⟩ | ⟨n, b, hchain, hblames⟩
  · obtain ⟨_, _, h⟩ := hmissing
    cases h
  rcases hblames with ⟨-, rfl⟩ | ⟨rule, hrule, hrefuses⟩
  · obtain ⟨_, _, h⟩ := hmissing
    cases h
  · have hb : b.1.Inside r.registry := hchain.keeps (fun hstep => hstep.inside hr) hd
    exact hrefuses.not_reportsMissing hb hrule hmissing

theorem resolve_not_reportsMissing (hr : r.registry.Closed) (hd : d.Inside r.registry)
    (h : r.resolve path d = .error e) : ¬ e.ReportsMissing :=
  typeAt_not_reportsMissing hr hd (Outcome.map_eq_error.1 h)

theorem resolveField_not_reportsMissing (hr : r.registry.Closed) (hd : d.Inside r.registry)
    (h : r.resolveField path d = .error e) : ¬ e.ReportsMissing :=
  typeAt_not_reportsMissing hr hd (Outcome.bind_pure_eq_error.1 h)

end Resolver

/-- The name is that of a holder with a value that is no literal, and this is the cause. -/
def Registry.Unlisted (M : Registry) (name : String) (cause : ResolveError) : Prop :=
  ∃ id values j, (name, id) ∈ M.entries ∧ M.instance? id = some (.values values) ∧
    .structured j ∈ values ∧ cause = .unclassified name (.structuredValue j)

section

variable {M : Registry} {o : Options}

theorem generate_eq_error_of_closed (hM : M.Closed) {e : GenerateError}
    (h : generate M o = .error e) :
    ¬ e.cause.ReportsMissing ∧ ∀ name cause, e = .declaration name cause → M.Unlisted name cause := by
  obtain ⟨⟨name, id⟩, hentry, hdeclare⟩ := exists_declare_of_generate_eq_error h
  rcases Resolver.declare_eq_error hdeclare with
    ⟨d, key, cause, held, hcause, rfl⟩ | ⟨values, j, held, hj, rfl⟩ | ⟨absent, rfl⟩
  · refine ⟨Resolver.resolveField_not_reportsMissing (r := ⟨M, o⟩) hM (hM.inside held) hcause, ?_⟩
    rintro _ _ ⟨⟩
  · refine ⟨?_, ?_⟩
    · rintro ⟨_, _, h⟩
      cases h
    · rintro _ _ ⟨⟩
      exact ⟨id, values, j, hentry, held, hj, rfl⟩
  · obtain ⟨i, hi⟩ := (hM.entries _ hentry).exists_instance?
    rw [absent] at hi
    cases hi

theorem not_reportsMissing_of_skipped (hM : M.Closed) {g : Generated} (h : generate M o = .ok g)
    {name key : String} {cause : ResolveError}
    (hskipped : .skippedField name key cause ∈ g.diagnostics) : ¬ cause.ReportsMissing := by
  obtain ⟨results, hresults, rfl⟩ := generate_eq_ok.1 h
  rcases List.mem_append.1 hskipped with halias | hskipped
  · obtain ⟨names, -, heq⟩ := List.mem_map.1 halias
    cases heq
  · obtain ⟨⟨declared, skipped⟩, hresult, hmem⟩ := List.mem_flatMap.1 hskipped
    obtain ⟨entry, -, hdeclare⟩ := Outcome.exists_of_mem_of_mapM_eq_ok hresults _ hresult
    rcases Resolver.declare_eq_ok hdeclare with
      ⟨d, fields, held, hfields, -⟩ | ⟨values, type, -, -, -, rfl⟩
    · obtain ⟨key', -, cause', hcause, heq⟩ :=
        Resolver.exists_resolveField_of_skipped hfields _ hmem
      cases heq
      exact Resolver.resolveField_not_reportsMissing (r := ⟨M, o⟩) hM (hM.inside held) hcause
    · exact absurd hmem List.not_mem_nil

end

end SchemaTyping
