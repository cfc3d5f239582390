import SchemaTyping.Proofs.Generation.Declaring
import SchemaTyping.Proofs.Resolution.Fields

set_option autoImplicit false

/-! # What a pass accounts for

A pass sorts the keys of a definition into two streams, the fields that have a type (`Resolver.typed`) and the
errors of the others (`Resolver.untyped`), each in the order of the keys. Together they are the keys again
(`Resolver.names_perm`), so no key is lost and none stands in both.

This determines a pass: it succeeds with exactly one result, which has a declaration for each entry in
registry order and reports the groups of aliases and then the fields that were left out, entry by entry
(`generate_accounts`). Where fields may not be left out, it succeeds only if there are none. -/

namespace SchemaTyping

namespace Resolver

variable {r : Resolver} {d : Definition}

/-! ## Keys with and without a type -/

/-- The keys of the fields at the top level of a definition. -/
def topKeys (r : Resolver) (d : Definition) : List String := d.childKeys "" r.options.wildcardSegment

theorem nodup_topKeys (r : Resolver) (d : Definition) : (r.topKeys d).Nodup := nodup_eraseDups _

theorem point_not_mem_of_mem_topKeys : ∀ key ∈ r.topKeys d, '.' ∉ key.toList :=
  fun _ hkey => (Definition.mem_childKeys hkey).2.2

/-- The fields of those of the keys that have a type. -/
def typed (r : Resolver) (d : Definition) (keys : List String) : List (Field TypeExpr) :=
  keys.filterMap fun key => (r.resolveField key d).toOption

/-- Those of the keys that have no type, with the causes. -/
def untyped (r : Resolver) (d : Definition) (keys : List String) : Table ResolveError :=
  keys.filterMap fun key =>
    match r.resolveField key d with
    | .ok _ => none
    | .error cause => some (key, cause)

/-- The reports of keys without a type. -/
def reports (typeName : String) (causes : Table ResolveError) : List Diagnostic :=
  causes.map fun (key, cause) => .skippedField typeName key cause

section

variable {key : String} {field : Field TypeExpr} {cause : ResolveError} (keys : List String)

theorem typed_cons_of_ok (h : r.resolveField key d = .ok field) :
    r.typed d (key :: keys) = field :: r.typed d keys ∧ r.untyped d (key :: keys) = r.untyped d keys := by
  simp [typed, untyped, h, Except.toOption]

theorem typed_cons_of_error (h : r.resolveField key d = .error cause) :
    r.typed d (key :: keys) = r.typed d keys ∧
      r.untyped d (key :: keys) = (key, cause) :: r.untyped d keys := by
  simp [typed, untyped, h, Except.toOption]

/-- A field of a definition has its key as its name. -/
theorem name_of_resolveField (hkey : '.' ∉ key.toList) (h : r.resolveField key d = .ok field) :
    field.name = key := by
  rw [resolveField_eq_map, Path.parentAndKey_of_point_not_mem hkey] at h
  obtain ⟨found, -, rfl⟩ := Outcome.map_eq_ok.1 h
  rfl

/-- **Every key is in exactly one of the two streams**, as often as it is among the keys. -/
theorem names_perm (r : Resolver) (d : Definition) {keys : List String}
    (hkeys : ∀ key ∈ keys, '.' ∉ key.toList) :
    ((r.typed d keys).map (·.name) ++ (r.untyped d keys).names).Perm keys := by
  induction keys with
  | nil => exact List.Perm.refl []
  | cons key keys ih =>
      obtain ⟨hkey, hothers⟩ := List.forall_mem_cons.1 hkeys
      cases hfield : r.resolveField key d with
      | ok field =>
          obtain ⟨htyped, huntyped⟩ := typed_cons_of_ok keys hfield
          rw [htyped, huntyped, List.map_cons, name_of_resolveField hkey hfield]
          exact (ih hothers).cons key
      | error cause =>
          obtain ⟨htyped, huntyped⟩ := typed_cons_of_error keys hfield
          rw [htyped, huntyped]
          exact List.perm_middle.trans ((ih hothers).cons key)

end

/-- The fields of a definition and their reports are the two streams, unless there is something to report and
    that is an error. -/
theorem keyFields_eq_ok_iff {typeName : String} {keys : List String} {fields : List (Field TypeExpr)}
    {skipped : List Diagnostic} :
    r.keyFields typeName d keys = .ok (fields, skipped) ↔
      fields = r.typed d keys ∧ skipped = reports typeName (r.untyped d keys) ∧
        (r.options.missingFields = .abort → r.untyped d keys = []) := by
  induction keys generalizing fields skipped with
  | nil => simp [keyFields, typed, untyped, reports, eq_comm]
  | cons key keys ih =>
      rw [keyFields_cons_eq_ok]
      cases hfield : r.resolveField key d with
      | ok field =>
          obtain ⟨htyped, huntyped⟩ := typed_cons_of_ok keys hfield
          rw [htyped, huntyped]
          constructor
          · rintro ⟨fields', skipped', hrest, ⟨first, hfirst, rfl, rfl⟩ | ⟨cause, hcause, -⟩⟩
            · obtain ⟨rfl, hothers⟩ := ih.1 hrest
              cases hfirst
              exact ⟨rfl, hothers⟩
            · cases hcause
          · rintro ⟨rfl, hothers⟩
            exact ⟨_, _, ih.2 ⟨rfl, hothers⟩, Or.inl ⟨field, rfl, rfl, rfl⟩⟩
      | error cause =>
          obtain ⟨htyped, huntyped⟩ := typed_cons_of_error keys hfield
          rw [htyped, huntyped]
          constructor
          · rintro ⟨fields', skipped', hrest,
              ⟨first, hfirst, -⟩ | ⟨cause', hcause, hpolicy, rfl, rfl⟩⟩
            · cases hfirst
            · obtain ⟨rfl, rfl, -⟩ := ih.1 hrest
              cases hcause
              exact ⟨rfl, rfl, fun habort => by simp [hpolicy] at habort⟩
          · rintro ⟨rfl, rfl, habort⟩
            have hpolicy : r.options.missingFields = .skip := by
              cases hmissing : r.options.missingFields with
              | skip => rfl
              | abort => cases habort hmissing
            have hrest := ih.2 ⟨rfl, rfl, fun habort => by simp [hpolicy] at habort⟩
            exact ⟨_, _, hrest, Or.inr ⟨cause, rfl, hpolicy, rfl, rfl⟩⟩

/-! ## Entries -/

/-- The declaration that an entry has: an object with the fields that have a type, or a choice of the literals
    that a holder lists. -/
inductive DeclaredAs (r : Resolver) : String × InstanceId → Declaration → Prop where
  | object {name : String} {id : InstanceId} {d : Definition}
      (held : r.registry.instance? id = some (.schema d)) :
      DeclaredAs r (name, id) { name, type := .object (r.typed d (r.topKeys d)) }
  | literals {name : String} {id : InstanceId} {literals : List Literal}
      (held : r.registry.instance? id = some (.values (literals.map .literal))) :
      DeclaredAs r (name, id) { name, type := .literals literals.eraseDups }

/-- The fields that an entry leaves out, with the causes: those of a definition that have no type. -/
def leftOut (r : Resolver) (id : InstanceId) : Table ResolveError :=
  match r.registry.instance? id with
  | some (.schema d) => r.untyped d (r.topKeys d)
  | _ => []

theorem declare_eq_ok_iff {name : String} {id : InstanceId} {declared : Declaration}
    {skipped : List Diagnostic} :
    r.declare name id = .ok (declared, skipped) ↔
      r.DeclaredAs (name, id) declared ∧ skipped = reports name (r.leftOut id) ∧
        (r.options.missingFields = .abort → r.leftOut id = []) := by
  constructor
  · intro h
    rcases declare_eq_ok h with ⟨d, fields, held, hfields, rfl⟩ | ⟨values, type, held, htype, rfl, rfl⟩
    · obtain ⟨rfl, rfl, habort⟩ := keyFields_eq_ok_iff.1 hfields
      simp only [leftOut, held]
      exact ⟨.object held, rfl, habort⟩
    · obtain ⟨literals, rfl, rfl⟩ := literalsType_eq_ok.1 htype
      simp only [leftOut, held]
      exact ⟨.literals held, rfl, fun _ => trivial⟩
  · rintro ⟨hdeclares, rfl, habort⟩
    cases hdeclares with
    | @object _ _ d held =>
        simp only [leftOut, held] at habort ⊢
        have hfields : r.keyFields name d (r.topKeys d)
            = .ok (r.typed d (r.topKeys d), reports name (r.untyped d (r.topKeys d))) :=
          keyFields_eq_ok_iff.2 ⟨rfl, rfl, habort⟩
        unfold declare
        simp only [held]
        exact Outcome.bind_eq_ok.2 ⟨_, hfields, rfl⟩
    | @literals _ _ literals held =>
        have htype : literalsType name (literals.map .literal) = .ok (.literals literals.eraseDups) :=
          literalsType_eq_ok.2 ⟨literals, rfl, rfl⟩
        simp only [declare, leftOut, held, htype]
        rfl

/-- Going through entries declares them in turn. -/
theorem mapM_declare_eq_ok_iff {entries : Table InstanceId} {results : List (Declaration × List Diagnostic)} :
    (entries.mapM fun (name, id) => r.declare name id) = .ok results ↔
      List.Forall₂ r.DeclaredAs entries (results.map (·.1)) ∧
        results.map (·.2) = entries.map (fun (name, id) => reports name (r.leftOut id)) ∧
        (r.options.missingFields = .abort → ∀ entry ∈ entries, r.leftOut entry.2 = []) := by
  rw [Outcome.mapM_eq_ok_iff]
  constructor
  · intro h
    induction h with
    | nil => exact ⟨.nil, rfl, fun _ entry hentry => absurd hentry List.not_mem_nil⟩
    | @cons entry result entries results hfirst _ ih =>
        obtain ⟨hdeclares, hreports, habort⟩ := declare_eq_ok_iff.1 hfirst
        obtain ⟨hothers, hreports', habort'⟩ := ih
        refine ⟨.cons hdeclares hothers, ?_, fun h => ?_⟩
        · rw [List.map_cons, List.map_cons, hreports, hreports']
        · exact List.forall_mem_cons.2 ⟨habort h, habort' h⟩
  · intro ⟨hdeclares, hreports, habort⟩
    induction entries generalizing results with
    | nil =>
        cases results with
        | nil => exact .nil
        | cons result results => cases hreports
    | cons entry entries ih =>
        cases results with
        | nil => cases hreports
        | cons result results =>
            obtain ⟨hfirst, hothers⟩ := List.forall₂_cons.1 hdeclares
            obtain ⟨hreport, hreports⟩ := List.cons.inj hreports
            refine .cons (declare_eq_ok_iff.2 ⟨hfirst, hreport, fun h => ?_⟩)
              (ih hothers hreports fun h => ?_)
            · exact habort h entry List.mem_cons_self
            · exact fun other hother => habort h other (List.mem_cons_of_mem _ hother)

end Resolver

/-! ## The pass -/

/-- What is generated accounts for every entry of the registry and for every key of its definitions. -/
structure Accounts (M : Registry) (o : Options) (g : Generated) : Prop where
  /-- There is a declaration for each entry, in registry order. -/
  declarations : List.Forall₂ (Resolver.DeclaredAs ⟨M, o⟩) M.entries g.declarations
  /-- The groups of aliases are reported, and then the fields that are left out, in registry order. -/
  diagnostics : g.diagnostics = M.aliases.map .ambiguousReference ++
    M.entries.flatMap fun (name, id) => Resolver.reports name (Resolver.leftOut ⟨M, o⟩ id)
  /-- Where fields may not be left out, none is. -/
  complete : o.missingFields = .abort → ∀ entry ∈ M.entries, Resolver.leftOut ⟨M, o⟩ entry.2 = []
  objectName : g.objectName = o.objectName
  header : g.header = o.header

/-- **A pass loses, duplicates and reorders nothing.** It generates what accounts for every entry of the
    registry, and nothing else; and the keys of a definition are the names of the fields that are declared and
    the keys that are reported, each key once and in one of the two. -/
theorem generate_accounts (M : Registry) (o : Options) :
    (∀ g, generate M o = .ok g ↔ Accounts M o g) ∧
      ∀ d : Definition, (Resolver.topKeys ⟨M, o⟩ d).Nodup ∧
        ((Resolver.typed ⟨M, o⟩ d (Resolver.topKeys ⟨M, o⟩ d)).map (·.name) ++
          (Resolver.untyped ⟨M, o⟩ d (Resolver.topKeys ⟨M, o⟩ d)).names).Perm
            (Resolver.topKeys ⟨M, o⟩ d) := by
  refine ⟨fun g => ?_, fun d => ?_⟩
  · rw [generate_eq_ok]
    constructor
    · rintro ⟨results, hresults, rfl⟩
      obtain ⟨hdeclares, hreports, habort⟩ := Resolver.mapM_declare_eq_ok_iff.1 hresults
      refine ⟨hdeclares, ?_, habort, rfl, rfl⟩
      simp only [List.flatMap_def, hreports]
    · rintro ⟨hdeclares, hdiagnostics, habort, hobject, hheader⟩
      -- the results are put together again from the declarations and the reports
      let reports := M.entries.map fun (name, id) => Resolver.reports name (Resolver.leftOut ⟨M, o⟩ id)
      have hlength : g.declarations.length = reports.length := by
        simp [reports, hdeclares.length_eq]
      have hfirst : (g.declarations.zip reports).map (·.1) = g.declarations :=
        List.map_fst_zip (Nat.le_of_eq hlength)
      have hsecond : (g.declarations.zip reports).map (·.2) = reports :=
        List.map_snd_zip (Nat.le_of_eq hlength.symm)
      refine ⟨g.declarations.zip reports,
        Resolver.mapM_declare_eq_ok_iff.2 ⟨hfirst.symm ▸ hdeclares, hsecond, habort⟩, ?_⟩
      rw [hfirst, List.flatMap_def, hsecond, ← List.flatMap_def, ← hdiagnostics, ← hobject, ← hheader]
  · exact ⟨Resolver.nodup_topKeys _ d, Resolver.names_perm _ d Resolver.point_not_mem_of_mem_topKeys⟩

end SchemaTyping
