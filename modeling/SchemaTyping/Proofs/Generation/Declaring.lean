import SchemaTyping.Generate
import SchemaTyping.Proofs.Registry.Keys
import SchemaTyping.Proofs.Resolution.Nesting

set_option autoImplicit false

/-! # Declaring an entry

What the fields of a definition have to be for its declaration, and the other way round. Each key adds a
field, or a report where the options say so (`Resolver.keyFields_cons_eq_ok`); a definition of which every
field has a type is declared with all of them and without a report (`Resolver.declare_of_fieldsBelow`).
A pass declares the entries one by one and keeps their names (`Resolver.names_of_mapM_declare`). Whatever is
refused or reported goes back to one field, one value or one id that is missing
(`Resolver.declare_eq_error`, `Resolver.exists_resolveField_of_skipped`). -/

namespace SchemaTyping.Resolver

variable {r : Resolver} {d : Definition}

/-- The first key adds its field, or the report of the error in its place. -/
theorem keyFields_cons_eq_ok {typeName key : String} {keys : List String}
    {fields : List (Field TypeExpr)} {skipped : List Diagnostic} :
    r.keyFields typeName d (key :: keys) = .ok (fields, skipped) ↔
      ∃ fields' skipped', r.keyFields typeName d keys = .ok (fields', skipped') ∧
        ((∃ field, r.resolveField key d = .ok field ∧ fields = field :: fields' ∧
            skipped = skipped') ∨
          ∃ cause, r.resolveField key d = .error cause ∧ r.options.missingFields = .skip ∧
            fields = fields' ∧ skipped = .skippedField typeName key cause :: skipped') := by
  constructor
  · intro h
    unfold keyFields at h
    split at h
    · next field hfield =>
        obtain ⟨⟨fields', skipped'⟩, hrest, h⟩ := Outcome.bind_eq_ok.1 h
        cases h
        exact ⟨_, _, hrest, Or.inl ⟨field, hfield, rfl, rfl⟩⟩
    · next cause hcause =>
        split at h
        · cases h
        · next hpolicy =>
            obtain ⟨⟨fields', skipped'⟩, hrest, h⟩ := Outcome.bind_eq_ok.1 h
            cases h
            exact ⟨_, _, hrest, Or.inr ⟨cause, hcause, hpolicy, rfl, rfl⟩⟩
  · rintro ⟨fields', skipped', hrest, ⟨field, hfield, rfl, rfl⟩ | ⟨cause, hcause, hpolicy, rfl, rfl⟩⟩
    · simp only [keyFields, hfield, hrest]
      rfl
    · simp only [keyFields, hcause, hpolicy, hrest]
      rfl

/-- Every field that is kept is the field of one of the keys. -/
theorem exists_resolveField_of_keyFields {typeName : String} {keys : List String} :
    ∀ {fields : List (Field TypeExpr)} {skipped : List Diagnostic},
      r.keyFields typeName d keys = .ok (fields, skipped) →
        ∀ field ∈ fields, ∃ key ∈ keys, r.resolveField key d = .ok field := by
  induction keys with
  | nil =>
      intro fields skipped h
      cases h
      exact fun _ h => absurd h List.not_mem_nil
  | cons key keys ih =>
      intro fields skipped h field hfield
      obtain ⟨fields', skipped', hrest, ⟨first, hfirst, rfl, rfl⟩ | ⟨cause, -, -, rfl, rfl⟩⟩ :=
        keyFields_cons_eq_ok.1 h
      · rcases List.mem_cons.1 hfield with rfl | hfield
        · exact ⟨key, List.mem_cons_self, hfirst⟩
        · obtain ⟨key', hkey', hresolve⟩ := ih hrest field hfield
          exact ⟨key', List.mem_cons_of_mem _ hkey', hresolve⟩
      · obtain ⟨key', hkey', hresolve⟩ := ih hrest field hfield
        exact ⟨key', List.mem_cons_of_mem _ hkey', hresolve⟩

/-- Every report is that of one of the keys. -/
theorem exists_resolveField_of_skipped {typeName : String} {keys : List String} :
    ∀ {fields : List (Field TypeExpr)} {skipped : List Diagnostic},
      r.keyFields typeName d keys = .ok (fields, skipped) → ∀ report ∈ skipped,
        ∃ key ∈ keys, ∃ cause, r.resolveField key d = .error cause ∧
          report = .skippedField typeName key cause := by
  induction keys with
  | nil =>
      intro fields skipped h
      cases h
      exact fun _ h => absurd h List.not_mem_nil
  | cons key keys ih =>
      intro fields skipped h report hreport
      obtain ⟨fields', skipped', hrest, ⟨first, hfirst, rfl, rfl⟩ | ⟨cause, hcause, -, rfl, rfl⟩⟩ :=
        keyFields_cons_eq_ok.1 h
      · obtain ⟨key', hkey', hresolve⟩ := ih hrest report hreport
        exact ⟨key', List.mem_cons_of_mem _ hkey', hresolve⟩
      · rcases List.mem_cons.1 hreport with rfl | hreport
        · exact ⟨key, List.mem_cons_self, cause, hcause, rfl⟩
        · obtain ⟨key', hkey', hresolve⟩ := ih hrest report hreport
          exact ⟨key', List.mem_cons_of_mem _ hkey', hresolve⟩

/-- The refusal of fields is that of one of the keys. -/
theorem exists_resolveField_of_keyFields_eq_error {typeName : String} {keys : List String}
    {e : GenerateError} (h : r.keyFields typeName d keys = .error e) :
    ∃ key ∈ keys, ∃ cause, r.resolveField key d = .error cause ∧ e = .field typeName key cause := by
  induction keys with
  | nil => cases h
  | cons key keys ih =>
      have hlater (hrest : r.keyFields typeName d keys = .error e) :
          ∃ key' ∈ key :: keys, ∃ cause, r.resolveField key' d = .error cause ∧
            e = .field typeName key' cause := by
        obtain ⟨key', hkey', hresolve⟩ := ih hrest
        exact ⟨key', List.mem_cons_of_mem _ hkey', hresolve⟩
      unfold keyFields at h
      split at h
      · exact hlater (Outcome.bind_pure_eq_error.1 h)
      · next cause hcause =>
          split at h
          · cases h
            exact ⟨key, List.mem_cons_self, cause, hcause, rfl⟩
          · exact hlater (Outcome.bind_pure_eq_error.1 h)

/-- The fields of a definition whose keys all have types. -/
theorem keyFields_of_fieldsBelow {fields : List (Field TypeExpr)}
    (h : r.fieldsBelow r.top d "" = .ok fields) (typeName : String) :
    r.keyFields typeName d (d.childKeys "" r.options.wildcardSegment) = .ok (fields, []) := by
  have hpoints : ∀ key ∈ d.childKeys "" r.options.wildcardSegment, '.' ∉ key.toList :=
    fun key hkey => (Definition.mem_childKeys hkey).2.2
  rw [fieldsBelow_eq] at h
  generalize d.childKeys "" r.options.wildcardSegment = keys at h hpoints
  induction keys generalizing fields with
  | nil =>
      obtain rfl := Outcome.mapM_nil_eq_ok.1 h
      rfl
  | cons key keys ih =>
      obtain ⟨field, others, hfield, hothers, rfl⟩ := Outcome.mapM_cons_eq_ok.1 h
      have hrest := ih hothers fun key' hkey' => hpoints key' (List.mem_cons_of_mem _ hkey')
      have hresolve : r.resolveField key d = .ok field := by
        unfold resolveField
        rw [Path.parentAndKey_of_point_not_mem (hpoints key List.mem_cons_self)]
        exact hfield
      exact keyFields_cons_eq_ok.2 ⟨others, [], hrest, Or.inl ⟨field, hresolve, rfl, rfl⟩⟩

/-- A definition whose fields all have types is declared with them. -/
theorem declare_of_fieldsBelow {id : InstanceId} {fields : List (Field TypeExpr)}
    (held : r.registry.instance? id = some (.schema d))
    (h : r.fieldsBelow r.top d "" = .ok fields) (name : String) :
    r.declare name id = .ok ({ name, type := .object fields }, []) := by
  simp only [declare, held, keyFields_of_fieldsBelow h]
  rfl

/-- An entry that is declared is a definition with the fields that are kept, or a holder of literals. -/
theorem declare_eq_ok {name : String} {id : InstanceId} {declared : Declaration}
    {skipped : List Diagnostic} (h : r.declare name id = .ok (declared, skipped)) :
    (∃ d fields, r.registry.instance? id = some (.schema d) ∧
        r.keyFields name d (d.childKeys "" r.options.wildcardSegment) = .ok (fields, skipped) ∧
        declared = { name, type := .object fields }) ∨
      ∃ values type, r.registry.instance? id = some (.values values) ∧
        literalsType name values = .ok type ∧ declared = { name, type } ∧ skipped = [] := by
  unfold declare at h
  split at h
  · next d held =>
      obtain ⟨⟨fields, skipped'⟩, hfields, h⟩ := Outcome.bind_eq_ok.1 h
      cases h
      exact Or.inl ⟨d, fields, held, hfields, rfl⟩
  · next values held =>
      split at h
      · next type htype =>
          cases h
          exact Or.inr ⟨values, type, held, htype, rfl, rfl⟩
      · cases h
  · cases h

/-- An entry is refused for a field of its definition, for a value that is no literal, or because there is
    no instance. -/
theorem declare_eq_error {name : String} {id : InstanceId} {e : GenerateError}
    (h : r.declare name id = .error e) :
    (∃ d key cause, r.registry.instance? id = some (.schema d) ∧
        r.resolveField key d = .error cause ∧ e = .field name key cause) ∨
      (∃ values j, r.registry.instance? id = some (.values values) ∧ .structured j ∈ values ∧
        e = .declaration name (.unclassified name (.structuredValue j))) ∨
      r.registry.instance? id = none ∧
        e = .declaration name (.unclassified name (.missingInstance id)) := by
  unfold declare at h
  split at h
  · next d held =>
      obtain ⟨key, -, cause, hcause, rfl⟩ :=
        exists_resolveField_of_keyFields_eq_error (Outcome.bind_pure_eq_error.1 h)
      exact Or.inl ⟨d, key, cause, held, hcause, rfl⟩
  · next values held =>
      split at h
      · cases h
      · next cause hcause =>
          cases h
          obtain ⟨j, hj, rfl⟩ := literalsType_eq_error hcause
          exact Or.inr (Or.inl ⟨values, j, held, hj, rfl⟩)
  · next absent =>
      cases h
      exact Or.inr (Or.inr ⟨absent, rfl⟩)

theorem name_of_declare {name : String} {id : InstanceId} {result : Declaration × List Diagnostic}
    (h : r.declare name id = .ok result) : result.1.name = name := by
  rcases declare_eq_ok h with ⟨d, fields, -, -, hdeclared⟩ | ⟨values, type, -, -, hdeclared, -⟩ <;>
    rw [hdeclared]

theorem names_of_mapM_declare {entries : Table InstanceId}
    {results : List (Declaration × List Diagnostic)}
    (h : (entries.mapM fun (name, id) => r.declare name id) = .ok results) :
    results.map (·.1.name) = entries.names := by
  have hall := Outcome.mapM_eq_ok_iff.1 h
  clear h
  induction hall with
  | nil => rfl
  | cons hresult _ ih =>
      rw [List.map_cons, name_of_declare hresult, ih]
      rfl

end SchemaTyping.Resolver

namespace SchemaTyping

/-- A pass that succeeds declares every entry, in registry order. -/
theorem generate_eq_ok {M : Registry} {o : Options} {g : Generated} :
    generate M o = .ok g ↔
      ∃ results : List (Declaration × List Diagnostic),
        (M.entries.mapM fun (name, id) => Resolver.declare ⟨M, o⟩ name id) = .ok results ∧
          g = { declarations := results.map (·.1)
                diagnostics := M.aliases.map .ambiguousReference ++ results.flatMap (·.2)
                objectName := o.objectName
                header := o.header } := by
  unfold generate
  rw [Outcome.bind_eq_ok]
  constructor
  · rintro ⟨results, hresults, h⟩
    exact ⟨results, hresults, (Except.ok.inj h).symm⟩
  · rintro ⟨results, hresults, rfl⟩
    exact ⟨results, hresults, rfl⟩

/-- The refusal of a pass is that of one of the entries. -/
theorem exists_declare_of_generate_eq_error {M : Registry} {o : Options} {e : GenerateError}
    (h : generate M o = .error e) :
    ∃ entry ∈ M.entries, Resolver.declare ⟨M, o⟩ entry.1 entry.2 = .error e :=
  Outcome.exists_of_mapM_eq_error (Outcome.bind_pure_eq_error.1 h)

end SchemaTyping
