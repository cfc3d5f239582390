import SchemaTyping.TypeExpr.Basic

set_option autoImplicit false

/-! # References in types

`TypeExpr.references` lists the declared types that a type names, and `TypeExpr.replace` puts a type in the
place of one of these names, wherever it occurs. A type that is put in somewhere is at most as large as
the result, so a type never holds itself (`TypeExpr.not_mem_fieldsReferences`). -/

namespace SchemaTyping.TypeExpr

mutual

/-- The declared types that a type names, from left to right. -/
def references : TypeExpr → List String
  | .reference name => [name]
  | .array item => references item
  | .object fields => fieldsReferences fields
  | .union arms => armsReferences arms
  | _ => []

@[inherit_doc references]
def armsReferences : List TypeExpr → List String
  | [] => []
  | arm :: rest => references arm ++ armsReferences rest

@[inherit_doc references]
def fieldsReferences : List (Field TypeExpr) → List String
  | [] => []
  | ⟨_, type, _⟩ :: rest => references type ++ fieldsReferences rest

end

mutual

/-- A type with `u` in the place of every reference to `name`. -/
def replace (t : TypeExpr) (name : String) (u : TypeExpr) : TypeExpr :=
  match t with
  | .reference other => if other = name then u else .reference other
  | .array item => .array (item.replace name u)
  | .object fields => .object (replaceFields fields name u)
  | .union arms => .union (replaceArms arms name u)
  | .scalar other => .scalar other
  | .literals values => .literals values
  | .anyObject => .anyObject

@[inherit_doc replace]
def replaceArms (arms : List TypeExpr) (name : String) (u : TypeExpr) : List TypeExpr :=
  match arms with
  | [] => []
  | arm :: rest => arm.replace name u :: replaceArms rest name u

@[inherit_doc replace]
def replaceFields (fields : List (Field TypeExpr)) (name : String) (u : TypeExpr) :
    List (Field TypeExpr) :=
  match fields with
  | [] => []
  | ⟨key, type, optional⟩ :: rest => ⟨key, type.replace name u, optional⟩ :: replaceFields rest name u

end

variable {name : String} {u : TypeExpr}

/-- The fields of an object, of which there are none if nothing is declared. -/
def fields : TypeExpr → List (Field TypeExpr)
  | .object fields => fields
  | _ => []

@[simp] theorem fields_ofFields (fields : List (Field TypeExpr)) :
    (ofFields fields).fields = fields := by
  cases fields <;> rfl

theorem replace_ofFields (fields : List (Field TypeExpr)) :
    (ofFields fields).replace name u = ofFields (replaceFields fields name u) := by
  cases fields with
  | nil => rfl
  | cons field rest =>
      obtain ⟨key, type, optional⟩ := field
      rfl

theorem replace_oneOf (arms : List TypeExpr) :
    (oneOf arms).replace name u = oneOf (replaceArms arms name u) := by
  match arms with
  | [] => rfl
  | [arm] => rfl
  | _ :: _ :: _ => rfl

theorem mem_references_ofFields {fields : List (Field TypeExpr)} :
    name ∈ (ofFields fields).references ↔ name ∈ fieldsReferences fields := by
  cases fields with
  | nil => rfl
  | cons field rest => rfl

theorem mem_fieldsReferences {fields : List (Field TypeExpr)} :
    name ∈ fieldsReferences fields ↔ ∃ field ∈ fields, name ∈ field.type.references := by
  induction fields with
  | nil => simp [fieldsReferences]
  | cons field rest ih =>
      obtain ⟨key, type, optional⟩ := field
      simp [fieldsReferences, ih]

theorem mem_references_oneOf {arms : List TypeExpr} :
    name ∈ (oneOf arms).references ↔ name ∈ armsReferences arms := by
  match arms with
  | [] => rfl
  | [arm] => simp [oneOf, armsReferences]
  | _ :: _ :: _ => rfl

mutual

theorem replace_of_not_mem {t : TypeExpr} (h : name ∉ t.references) : t.replace name u = t := by
  cases t with
  | reference other =>
      have hne : other ≠ name := fun heq => h (by simp [references, heq])
      rw [replace, if_neg hne]
  | array item =>
      have hitem : name ∉ item.references := h
      rw [replace, replace_of_not_mem hitem]
  | object fields =>
      have hfields : name ∉ fieldsReferences fields := h
      rw [replace, replaceFields_of_not_mem hfields]
  | union arms =>
      have harms : name ∉ armsReferences arms := h
      rw [replace, replaceArms_of_not_mem harms]
  | scalar | literals | anyObject => rfl

theorem replaceArms_of_not_mem {arms : List TypeExpr} (h : name ∉ armsReferences arms) :
    replaceArms arms name u = arms := by
  cases arms with
  | nil => rfl
  | cons arm rest =>
      rw [armsReferences, List.mem_append, not_or] at h
      rw [replaceArms, replace_of_not_mem h.1, replaceArms_of_not_mem h.2]

theorem replaceFields_of_not_mem {fields : List (Field TypeExpr)}
    (h : name ∉ fieldsReferences fields) : replaceFields fields name u = fields := by
  cases fields with
  | nil => rfl
  | cons field rest =>
      obtain ⟨key, type, optional⟩ := field
      rw [fieldsReferences, List.mem_append, not_or] at h
      rw [replaceFields, replace_of_not_mem h.1, replaceFields_of_not_mem h.2]

end

mutual

/-- What is put in is at most as large as the result. -/
theorem sizeOf_le_replace {t : TypeExpr} (h : name ∈ t.references) :
    sizeOf u ≤ sizeOf (t.replace name u) := by
  cases t with
  | reference other =>
      obtain rfl : name = other := List.mem_singleton.1 h
      have hsame : (TypeExpr.reference name).replace name u = u := by rw [replace, if_pos rfl]
      exact Nat.le_of_eq (congrArg sizeOf hsame.symm)
  | array item =>
      have hitem : name ∈ item.references := h
      have hle := sizeOf_le_replace hitem
      rw [replace, array.sizeOf_spec]
      omega
  | object fields =>
      have hfields : name ∈ fieldsReferences fields := h
      have hle := sizeOf_le_replaceFields hfields
      rw [replace, object.sizeOf_spec]
      omega
  | union arms =>
      have harms : name ∈ armsReferences arms := h
      have hle := sizeOf_le_replaceArms harms
      rw [replace, union.sizeOf_spec]
      omega
  | scalar | literals | anyObject => cases h

@[inherit_doc sizeOf_le_replace]
theorem sizeOf_le_replaceArms {arms : List TypeExpr} (h : name ∈ armsReferences arms) :
    sizeOf u ≤ sizeOf (replaceArms arms name u) := by
  cases arms with
  | nil => cases h
  | cons arm rest =>
      rw [replaceArms, List.cons.sizeOf_spec]
      rcases List.mem_append.1 h with hfirst | hrest
      · have hle := sizeOf_le_replace hfirst
        omega
      · have hle := sizeOf_le_replaceArms hrest
        omega

@[inherit_doc sizeOf_le_replace]
theorem sizeOf_le_replaceFields {fields : List (Field TypeExpr)}
    (h : name ∈ fieldsReferences fields) : sizeOf u ≤ sizeOf (replaceFields fields name u) := by
  cases fields with
  | nil => cases h
  | cons field rest =>
      obtain ⟨key, type, optional⟩ := field
      rw [replaceFields, List.cons.sizeOf_spec, Field.mk.sizeOf_spec]
      rcases List.mem_append.1 h with hfirst | hrest
      · have hle := sizeOf_le_replace hfirst
        omega
      · have hle := sizeOf_le_replaceFields hrest
        omega

end

/-- No type is put into its own fields. -/
theorem not_mem_fieldsReferences {fields : List (Field TypeExpr)}
    (hu : u = ofFields (replaceFields fields name u)) : name ∉ fieldsReferences fields := by
  intro h
  have hle := sizeOf_le_replaceFields (u := u) h
  have hobject : u = .object (replaceFields fields name u) := by
    cases fields with
    | nil => cases h
    | cons field rest => exact hu
  have hsize : sizeOf u = 1 + sizeOf (replaceFields fields name u) :=
    (congrArg sizeOf hobject).trans (object.sizeOf_spec _)
  omega

end SchemaTyping.TypeExpr
