import SchemaTyping.Proofs.Generation.Declaring

set_option autoImplicit false

/-! # Leaving fields out and giving up

The two policies for fields without a type describe one pass: giving up is leaving out, stopped at the
first report (`stopped`). This holds of the fields of a definition, since the policy has no part in the
type of a field, and of the declaration of an entry. A pass that gives up therefore ends at the first entry
that is refused or has something to report, and everything before that entry is as it would be with the
other policy (`abort_and_skip_agree`). -/

namespace SchemaTyping

/-- The options with this policy for fields that have no type. -/
def Options.withPolicy (o : Options) (policy : MissingFieldPolicy) : Options :=
  { o with missingFields := policy }

/-- Is a field left out? -/
def Diagnostic.isSkippedField : Diagnostic → Bool
  | .skippedField .. => true
  | .ambiguousReference _ => false

/-- What is left of an outcome with reports when the first field that is left out is an error. -/
def stopped {α : Type} :
    Except GenerateError (α × List Diagnostic) → Except GenerateError (α × List Diagnostic)
  | .ok (_, .skippedField typeName key cause :: _) => .error (.field typeName key cause)
  | outcome => outcome

section

variable {α : Type} {outcome : Except GenerateError (α × List Diagnostic)}

theorem stopped_eq_declaration {typeName : String} {cause : ResolveError} :
    stopped outcome = .error (.declaration typeName cause) ↔
      outcome = .error (.declaration typeName cause) := by
  unfold stopped
  split <;> simp

/-- Stopping does not depend on what is made of the result. -/
theorem stopped_bind_pure {β : Type} (f : α → β) :
    stopped (outcome >>= fun (a, reports) => pure (f a, reports)) =
      stopped outcome >>= fun (a, reports) => pure (f a, reports) := by
  match outcome with
  | .error e => rfl
  | .ok (a, []) => rfl
  | .ok (a, .skippedField typeName key cause :: others) => rfl
  | .ok (a, .ambiguousReference names :: others) => rfl

theorem eq_ok_of_stopped {result : α × List Diagnostic} (h : stopped outcome = .ok result) :
    outcome = .ok result := by
  unfold stopped at h
  split at h
  · cases h
  · exact h

/-- The error of a field stands where its report stood first. -/
theorem exists_of_stopped_eq_field {typeName key : String} {cause : ResolveError}
    (h : stopped outcome = .error (.field typeName key cause)) :
    outcome = .error (.field typeName key cause) ∨
      ∃ a others, outcome = .ok (a, .skippedField typeName key cause :: others) := by
  unfold stopped at h
  split at h
  · cases h
    exact Or.inr ⟨_, _, rfl⟩
  · exact Or.inl h

end

namespace Resolver

variable {M : Registry} {o : Options}

/-! ## Fields -/

theorem typeAt_withPolicy (policy : MissingFieldPolicy) (levels : Nat) :
    typeAt ⟨M, o.withPolicy policy⟩ levels = typeAt ⟨M, o⟩ levels := by
  induction levels with
  | zero => rfl
  | succ levels ih =>
      funext d path
      simp only [typeAt, ih]
      rfl

/-- The policy has no part in the type of a field. -/
theorem resolveField_withPolicy (policy : MissingFieldPolicy) (key : String) (d : Definition) :
    resolveField ⟨M, o.withPolicy policy⟩ key d = resolveField ⟨M, o⟩ key d := by
  unfold resolveField top
  rw [typeAt_withPolicy]
  rfl

/-- Where fields are left out none ends the pass. -/
theorem exists_keyFields_skip (typeName : String) (d : Definition) (keys : List String) :
    ∃ fields reports,
      keyFields ⟨M, o.withPolicy .skip⟩ typeName d keys = .ok (fields, reports) := by
  induction keys with
  | nil => exact ⟨[], [], rfl⟩
  | cons key keys ih =>
      obtain ⟨fields, reports, hrest⟩ := ih
      cases hfield : resolveField ⟨M, o.withPolicy .skip⟩ key d with
      | ok field =>
          exact ⟨_, _, keyFields_cons_eq_ok.2 ⟨fields, reports, hrest, Or.inl ⟨field, hfield, rfl, rfl⟩⟩⟩
      | error cause =>
          exact ⟨_, _, keyFields_cons_eq_ok.2
            ⟨fields, reports, hrest, Or.inr ⟨cause, hfield, rfl, rfl, rfl⟩⟩⟩

theorem keyFields_abort (typeName : String) (d : Definition) (keys : List String) :
    keyFields ⟨M, o.withPolicy .abort⟩ typeName d keys =
      stopped (keyFields ⟨M, o.withPolicy .skip⟩ typeName d keys) := by
  induction keys with
  | nil => rfl
  | cons key keys ih =>
      simp only [keyFields, resolveField_withPolicy]
      cases resolveField ⟨M, o⟩ key d with
      | ok field =>
          dsimp only
          rw [ih]
          exact (stopped_bind_pure (field :: ·)).symm
      | error cause =>
          obtain ⟨fields, reports, hrest⟩ := exists_keyFields_skip (M := M) (o := o) typeName d keys
          simp only [hrest]
          rfl

/-- Every one of these keys has a type. -/
def AllTyped (r : Resolver) (d : Definition) (keys : List String) : Prop :=
  ∀ key ∈ keys, ∃ field, r.resolveField key d = .ok field

/-- The key is the first of these without a type, and this is the cause. -/
def FirstUntyped (r : Resolver) (d : Definition) (keys : List String) (key : String)
    (cause : ResolveError) : Prop :=
  ∃ earlier later, keys = earlier ++ key :: later ∧ r.AllTyped d earlier ∧
    r.resolveField key d = .error cause

theorem allTyped_of_keyFields {typeName : String} {d : Definition} {keys : List String}
    {fields : List (Field TypeExpr)}
    (h : keyFields ⟨M, o.withPolicy .skip⟩ typeName d keys = .ok (fields, [])) :
    AllTyped ⟨M, o⟩ d keys := by
  induction keys generalizing fields with
  | nil => exact fun key hkey => absurd hkey List.not_mem_nil
  | cons key keys ih =>
      obtain ⟨fields', reports, hrest, ⟨field, hfield, rfl, rfl⟩ | ⟨cause, -, -, -, hreport⟩⟩ :=
        keyFields_cons_eq_ok.1 h
      · rw [resolveField_withPolicy] at hfield
        exact List.forall_mem_cons.2 ⟨⟨field, hfield⟩, ih hrest⟩
      · cases hreport

/-- The first report is that of the first key without a type. -/
theorem firstUntyped_of_keyFields {typeName : String} {d : Definition} {keys : List String}
    {fields : List (Field TypeExpr)} {report : Diagnostic} {others : List Diagnostic}
    (h : keyFields ⟨M, o.withPolicy .skip⟩ typeName d keys = .ok (fields, report :: others)) :
    ∃ key cause, report = .skippedField typeName key cause ∧
      FirstUntyped ⟨M, o⟩ d keys key cause := by
  induction keys generalizing fields with
  | nil => cases h
  | cons first keys ih =>
      obtain ⟨fields', reports, hrest, ⟨field, hfield, rfl, rfl⟩ | ⟨cause, hcause, -, -, hreport⟩⟩ :=
        keyFields_cons_eq_ok.1 h
      · rw [resolveField_withPolicy] at hfield
        obtain ⟨key, cause, rfl, earlier, later, rfl, hearlier, hcause⟩ := ih hrest
        refine ⟨key, cause, rfl, first :: earlier, later, rfl, ?_, hcause⟩
        exact List.forall_mem_cons.2 ⟨⟨field, hfield⟩, hearlier⟩
      · rw [resolveField_withPolicy] at hcause
        cases hreport
        exact ⟨first, cause, rfl, [], keys, rfl, fun key hkey => absurd hkey List.not_mem_nil, hcause⟩

/-! ## Entries -/

/-- **An entry is declared with one policy as with the other**, but for the first report. -/
theorem declare_abort (name : String) (id : InstanceId) :
    declare ⟨M, o.withPolicy .abort⟩ name id =
      stopped (declare ⟨M, o.withPolicy .skip⟩ name id) := by
  unfold declare
  dsimp only
  cases M.instance? id with
  | none => rfl
  | some i =>
      cases i with
      | schema d =>
          dsimp only
          rw [keyFields_abort]
          exact (stopped_bind_pure fun fields => ({ name, type := .object fields } : Declaration)).symm
      | values values =>
          dsimp only
          cases literalsType name values <;> rfl

/-- Every report on an entry is that of a field that is left out. -/
theorem exists_of_mem_reports {r : Resolver} {name : String} {id : InstanceId}
    {declared : Declaration} {reports : List Diagnostic}
    (h : r.declare name id = .ok (declared, reports)) :
    ∀ report ∈ reports, ∃ key cause, report = .skippedField name key cause := by
  intro report hreport
  rcases declare_eq_ok h with ⟨d, fields, -, hfields, -⟩ | ⟨values, type, -, -, -, rfl⟩
  · obtain ⟨key, -, cause, -, rfl⟩ := exists_resolveField_of_skipped hfields report hreport
    exact ⟨key, cause, rfl⟩
  · exact absurd hreport List.not_mem_nil

/-- An entry is declared without giving up exactly when it is without a report. -/
theorem declare_abort_eq_ok {name : String} {id : InstanceId}
    {result : Declaration × List Diagnostic} :
    declare ⟨M, o.withPolicy .abort⟩ name id = .ok result ↔
      declare ⟨M, o.withPolicy .skip⟩ name id = .ok result ∧ result.2 = [] := by
  obtain ⟨declared, reports⟩ := result
  rw [declare_abort]
  constructor
  · intro h
    have hskip := eq_ok_of_stopped h
    refine ⟨hskip, ?_⟩
    cases reports with
    | nil => rfl
    | cons report others =>
        obtain ⟨key, cause, rfl⟩ := exists_of_mem_reports hskip report List.mem_cons_self
        rw [hskip] at h
        cases h
  · rintro ⟨hskip, rfl⟩
    rw [hskip]
    rfl

/-- Where fields are left out an entry is refused as a whole. -/
theorem exists_of_declare_skip {name : String} {id : InstanceId} {e : GenerateError}
    (h : declare ⟨M, o.withPolicy .skip⟩ name id = .error e) :
    ∃ cause, e = .declaration name cause := by
  cases held : M.instance? id with
  | none =>
      simp only [declare, held] at h
      exact ⟨_, (Except.error.inj h).symm⟩
  | some i =>
      simp only [declare, held] at h
      cases i with
      | schema d =>
          obtain ⟨fields, reports, hfields⟩ :=
            exists_keyFields_skip (M := M) (o := o) name d (d.childKeys "" o.wildcardSegment)
          cases (Outcome.bind_pure_eq_error.1 h).symm.trans hfields
      | values values =>
          dsimp only at h
          cases htype : literalsType name values with
          | ok type =>
              rw [htype] at h
              cases h
          | error cause =>
              rw [htype] at h
              exact ⟨cause, (Except.error.inj h).symm⟩

/-- Every field at the top level of the instance has a type, if it has any fields. -/
def Complete (r : Resolver) (id : InstanceId) : Prop :=
  ∀ d, r.registry.instance? id = some (.schema d) →
    r.AllTyped d (d.childKeys "" r.options.wildcardSegment)

/-- The key is the first at the top level of the instance without a type, and this is the cause. -/
def Incomplete (r : Resolver) (id : InstanceId) (key : String) (cause : ResolveError) : Prop :=
  ∃ d, r.registry.instance? id = some (.schema d) ∧
    r.FirstUntyped d (d.childKeys "" r.options.wildcardSegment) key cause

theorem complete_of_declare {name : String} {id : InstanceId} {declared : Declaration}
    (h : declare ⟨M, o.withPolicy .skip⟩ name id = .ok (declared, [])) :
    Complete ⟨M, o⟩ id := by
  intro d held
  rcases declare_eq_ok h with ⟨d', fields, held', hfields, -⟩ | ⟨values, type, held', -, -, -⟩
  · cases held.symm.trans held'
    exact allTyped_of_keyFields hfields
  · cases held.symm.trans held'

theorem incomplete_of_declare {name typeName key : String} {id : InstanceId}
    {cause : ResolveError} {declared : Declaration} {others : List Diagnostic}
    (h : declare ⟨M, o.withPolicy .skip⟩ name id
      = .ok (declared, .skippedField typeName key cause :: others)) :
    typeName = name ∧ Incomplete ⟨M, o⟩ id key cause := by
  rcases declare_eq_ok h with ⟨d, fields, held, hfields, -⟩ | ⟨values, type, -, -, -, hnil⟩
  · obtain ⟨key', cause', heq, hfirst⟩ := firstUntyped_of_keyFields hfields
    cases heq
    exact ⟨rfl, d, held, hfirst⟩
  · cases hnil

end Resolver

/-! ## The pass -/

section

variable {M : Registry} {o : Options}

/-- The declarations of these entries with a policy. -/
def declareAll (M : Registry) (o : Options) (entries : Table InstanceId) :
    Except GenerateError (List (Declaration × List Diagnostic)) :=
  entries.mapM fun (name, id) => Resolver.declare ⟨M, o⟩ name id

theorem declareAll_abort_eq_ok {entries : Table InstanceId}
    {results : List (Declaration × List Diagnostic)} :
    declareAll M (o.withPolicy .abort) entries = .ok results ↔
      declareAll M (o.withPolicy .skip) entries = .ok results ∧ results.flatMap (·.2) = [] := by
  induction entries generalizing results with
  | nil =>
      rw [declareAll, declareAll, Outcome.mapM_nil_eq_ok, Outcome.mapM_nil_eq_ok]
      constructor
      · rintro rfl
        exact ⟨rfl, rfl⟩
      · exact And.left
  | cons entry entries ih =>
      unfold declareAll at ih ⊢
      rw [Outcome.mapM_cons_eq_ok, Outcome.mapM_cons_eq_ok]
      constructor
      · rintro ⟨result, others, hresult, hothers, rfl⟩
        obtain ⟨hskip, hnil⟩ := Resolver.declare_abort_eq_ok.1 hresult
        obtain ⟨hskips, hnils⟩ := ih.1 hothers
        refine ⟨⟨result, others, hskip, hskips, rfl⟩, ?_⟩
        rw [List.flatMap_cons, hnil, hnils]
        rfl
      · rintro ⟨⟨result, others, hskip, hskips, rfl⟩, hnil⟩
        rw [List.flatMap_cons, List.append_eq_nil_iff] at hnil
        exact ⟨result, others, Resolver.declare_abort_eq_ok.2 ⟨hskip, hnil.1⟩,
          ih.2 ⟨hskips, hnil.2⟩, rfl⟩

theorem exists_of_mem_flatMap_reports {o : Options} {entries : Table InstanceId}
    {results : List (Declaration × List Diagnostic)}
    (h : declareAll M o entries = .ok results) :
    ∀ report ∈ results.flatMap (·.2), ∃ name key cause, report = .skippedField name key cause := by
  intro report hreport
  obtain ⟨⟨declared, reports⟩, hresult, hmem⟩ := List.mem_flatMap.1 hreport
  obtain ⟨⟨name, id⟩, -, hdeclare⟩ := Outcome.exists_of_mem_of_mapM_eq_ok h _ hresult
  obtain ⟨key, cause, rfl⟩ := Resolver.exists_of_mem_reports hdeclare report hmem
  exact ⟨name, key, cause, rfl⟩

/-- A pass that leaves fields out and has nothing to report of them is one that does not give up. -/
theorem generate_abort_eq_ok {g : Generated} :
    generate M (o.withPolicy .abort) = .ok g ↔
      generate M (o.withPolicy .skip) = .ok g ∧
        ∀ name key cause, .skippedField name key cause ∉ g.diagnostics := by
  rw [generate_eq_ok, generate_eq_ok]
  constructor
  · rintro ⟨results, hresults, rfl⟩
    obtain ⟨hskip, hnil⟩ := declareAll_abort_eq_ok.1 hresults
    refine ⟨⟨results, hskip, rfl⟩, fun name key cause hmem => ?_⟩
    simp [hnil] at hmem
  · rintro ⟨⟨results, hresults, rfl⟩, hnone⟩
    have hnil : results.flatMap (·.2) = [] := by
      refine List.eq_nil_iff_forall_not_mem.2 fun report hreport => ?_
      obtain ⟨name, key, cause, rfl⟩ := exists_of_mem_flatMap_reports hresults report hreport
      exact hnone name key cause (List.mem_append_right _ hreport)
    exact ⟨results, declareAll_abort_eq_ok.2 ⟨hresults, hnil⟩, rfl⟩

/-- What is refused where fields are left out is one whole entry. -/
theorem exists_of_declareAll_skip {entries : Table InstanceId} {e : GenerateError}
    (h : declareAll M (o.withPolicy .skip) entries = .error e) :
    ∃ entry ∈ entries, ∃ cause, e = .declaration entry.1 cause ∧
      Resolver.declare ⟨M, o.withPolicy .skip⟩ entry.1 entry.2 = .error e := by
  obtain ⟨entry, hentry, hdeclare⟩ := Outcome.exists_of_mapM_eq_error h
  obtain ⟨cause, rfl⟩ := Resolver.exists_of_declare_skip hdeclare
  exact ⟨entry, hentry, cause, rfl, hdeclare⟩

theorem generate_eq_error {o : Options} {e : GenerateError} :
    generate M o = .error e ↔ declareAll M o M.entries = .error e :=
  Outcome.bind_pure_eq_error

/-- A pass that gives up at a whole entry comes to it with the other policy as well. -/
theorem generate_skip_eq_declaration {name : String} {cause : ResolveError}
    (h : generate M (o.withPolicy .abort) = .error (.declaration name cause)) :
    generate M (o.withPolicy .skip) = .error (.declaration name cause) := by
  rw [generate_eq_error] at h ⊢
  obtain ⟨before, entry, after, results, hentries, hbefore, hdeclare⟩ := Outcome.mapM_eq_error_iff.1 h
  obtain ⟨hskip, -⟩ := declareAll_abort_eq_ok.1 hbefore
  dsimp only at hdeclare
  rw [Resolver.declare_abort, stopped_eq_declaration] at hdeclare
  exact Outcome.mapM_eq_error_iff.2 ⟨before, entry, after, results, hentries, hskip, hdeclare⟩

/-- A pass that gives up at a field has come to the first entry with one that has no type: with the other
    policy this field would be the first to be reported. -/
theorem exists_of_declareAll_abort {entries : Table InstanceId} {name key : String}
    {cause : ResolveError}
    (h : declareAll M (o.withPolicy .abort) entries = .error (.field name key cause)) :
    ∃ before id after results declared others, entries = before ++ (name, id) :: after ∧
      declareAll M (o.withPolicy .skip) before = .ok results ∧ results.flatMap (·.2) = [] ∧
      Resolver.declare ⟨M, o.withPolicy .skip⟩ name id
        = .ok (declared, .skippedField name key cause :: others) := by
  obtain ⟨before, ⟨other, id⟩, after, results, rfl, hbefore, hdeclare⟩ :=
    Outcome.mapM_eq_error_iff.1 h
  obtain ⟨hskip, hnil⟩ := declareAll_abort_eq_ok.1 hbefore
  dsimp only at hdeclare
  rw [Resolver.declare_abort] at hdeclare
  rcases exists_of_stopped_eq_field hdeclare with hfield | ⟨declared, others, hdeclared⟩
  · obtain ⟨cause', heq⟩ := Resolver.exists_of_declare_skip hfield
    cases heq
  · obtain ⟨rfl, -⟩ := Resolver.incomplete_of_declare hdeclared
    exact ⟨before, id, after, results, declared, others, rfl, hskip, hnil, hdeclared⟩

theorem complete_of_declareAll {entries : Table InstanceId}
    {results : List (Declaration × List Diagnostic)}
    (h : declareAll M (o.withPolicy .skip) entries = .ok results)
    (hnil : results.flatMap (·.2) = []) :
    ∀ entry ∈ entries, Resolver.Complete ⟨M, o⟩ entry.2 := by
  intro entry hentry
  obtain ⟨⟨declared, reports⟩, hresult, hdeclare⟩ := Outcome.exists_mem_of_mapM_eq_ok h entry hentry
  obtain rfl : reports = [] := List.flatMap_eq_nil_iff.1 hnil _ hresult
  exact Resolver.complete_of_declare hdeclare

/-- The first field that is reported, when the names that share an instance have none. -/
theorem find?_diagnostics (groups : List (List String)) (report : Diagnostic)
    (others : List Diagnostic) (hreport : report.isSkippedField = true) :
    (groups.map Diagnostic.ambiguousReference ++ report :: others).find? Diagnostic.isSkippedField
      = some report := by
  have hgroups : (groups.map Diagnostic.ambiguousReference).find? Diagnostic.isSkippedField = none := by
    simp [Diagnostic.isSkippedField]
  rw [List.find?_append, hgroups, List.find?_cons_of_pos hreport]
  rfl

end

/-- **Giving up and leaving fields out describe one pass.** A pass gives up nothing exactly when the other
    policy leaves out nothing, and what they generate is the same. What is refused as a whole by the one is
    by the other. If a pass gives up at a field, this is the first in registry order and in the order of
    declaration that has no type; the other policy reports it as the first, with the cause of the error,
    unless an entry that stands after it is refused as a whole. -/
theorem abort_and_skip_agree (M : Registry) (o : Options) :
    (∀ g, generate M (o.withPolicy .abort) = .ok g ↔
      generate M (o.withPolicy .skip) = .ok g ∧
        ∀ name key cause, .skippedField name key cause ∉ g.diagnostics) ∧
    (∀ name cause, generate M (o.withPolicy .abort) = .error (.declaration name cause) →
      generate M (o.withPolicy .skip) = .error (.declaration name cause)) ∧
    ∀ name key cause, generate M (o.withPolicy .abort) = .error (.field name key cause) →
      ∃ before id after, M.entries = before ++ (name, id) :: after ∧
        (∀ entry ∈ before, Resolver.Complete ⟨M, o⟩ entry.2) ∧
        Resolver.Incomplete ⟨M, o⟩ id key cause ∧
        ((∃ entry ∈ after, ∃ cause',
            Resolver.declare ⟨M, o.withPolicy .skip⟩ entry.1 entry.2
              = .error (.declaration entry.1 cause') ∧
            generate M (o.withPolicy .skip) = .error (.declaration entry.1 cause')) ∨
          ∃ g, generate M (o.withPolicy .skip) = .ok g ∧
            g.diagnostics.find? Diagnostic.isSkippedField = some (.skippedField name key cause)) := by
  refine ⟨fun g => generate_abort_eq_ok, fun name cause => generate_skip_eq_declaration, ?_⟩
  intro name key cause h
  obtain ⟨before, id, after, results, declared, others, hentries, hbefore, hnil, hdeclared⟩ :=
    exists_of_declareAll_abort (generate_eq_error.1 h)
  obtain ⟨-, hincomplete⟩ := Resolver.incomplete_of_declare hdeclared
  refine ⟨before, id, after, hentries, complete_of_declareAll hbefore hnil, hincomplete, ?_⟩
  -- the entries up to this one are declared, so those after it decide how the other policy ends
  cases hafter : declareAll M (o.withPolicy .skip) after with
  | error e =>
      obtain ⟨entry, hentry, cause', rfl, hdeclare⟩ := exists_of_declareAll_skip hafter
      refine Or.inl ⟨entry, hentry, cause', hdeclare, generate_eq_error.2 ?_⟩
      unfold declareAll at hbefore hafter ⊢
      simp only [hentries, List.mapM_append, hbefore, List.mapM_cons, hdeclared, hafter]
      rfl
  | ok later =>
      have hall : declareAll M (o.withPolicy .skip) M.entries
          = .ok (results ++ (declared, .skippedField name key cause :: others) :: later) := by
        rw [hentries]
        exact Outcome.mapM_append_eq_ok.2
          ⟨results, _, hbefore, Outcome.mapM_cons_eq_ok.2 ⟨_, later, hdeclared, hafter, rfl⟩, rfl⟩
      refine Or.inr ⟨_, generate_eq_ok.2 ⟨_, hall, rfl⟩, ?_⟩
      simp only [List.flatMap_append, hnil, List.nil_append, List.flatMap_cons, List.cons_append]
      exact find?_diagnostics _ _ _ rfl

/-- Of the size of an item only a part is declared. Items come in kinds. -/
def stock (kinds : List EnumValue) : Registry where
  instances :=
    [.schema { rules :=
       [("count", { candidates := [.scalar .integer], candidates_ne_nil := List.cons_ne_nil _ _ }),
        ("size.width", { candidates := [.scalar .number], candidates_ne_nil := List.cons_ne_nil _ _ })] },
     .values kinds]
  entries := [("Item", ⟨0⟩), ("Kind", ⟨1⟩)]

/-- A pass gives up at the size; with the other policy the size is reported, unless a kind is refused. -/
theorem abort_and_skip_stock :
    generate (stock []) (Options.withPolicy {} .abort)
      = .error (.field "Item" "size" (.undeclared "size")) ∧
    (∃ g, generate (stock []) (Options.withPolicy {} .skip) = .ok g ∧
      g.diagnostics.find? Diagnostic.isSkippedField
        = some (.skippedField "Item" "size" (.undeclared "size"))) ∧
    ∃ cause, generate (stock [.structured (.list [])]) (Options.withPolicy {} .skip)
      = .error (.declaration "Kind" cause) := by
  have hgiven (kinds : List EnumValue) : generate (stock kinds) (Options.withPolicy {} .abort)
      = .error (.field "Item" "size" (.undeclared "size")) := rfl
  refine ⟨hgiven [], ?_, ?_⟩
  · obtain ⟨-, -, hfield⟩ := abort_and_skip_agree (stock []) {}
    obtain ⟨before, id, after, -, -, -, ⟨entry, -, cause, -, herror⟩ | hreport⟩ :=
      hfield _ _ _ (hgiven [])
    · cases herror
    · exact hreport
  · exact ⟨_, rfl⟩

end SchemaTyping
