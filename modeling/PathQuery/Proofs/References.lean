import PathQuery.Proofs.Registration
/-!
# References between types

However a field's type is wrapped in lists and in optionality, it names one thing, its base. The
base decides whether the field is a leaf and which object type there is to select from below it.

A draft is finished exactly if the base of every field is known to it. So a finished registry is
closed: what a field refers to is there.
-/

namespace PathQuery.Schema

namespace TypeRef

/-- What is left without any lists and optionality. -/
def base : TypeRef → TypeRef
  | list inner | optional inner => inner.base
  | type => type

/-- A type refers to a scalar, or to one of these enumerations or object types. -/
def Known (enums objects : List String) (type : TypeRef) : Prop :=
  (∃ kind, type.base = .scalar kind) ∨ (∃ name ∈ enums, type.base = .enumeration name) ∨
    ∃ name ∈ objects, type.base = .object name

theorem Known.mono {enums objects enums' objects' : List String} {type : TypeRef}
    (h : type.Known enums objects) (henums : enums ⊆ enums') (hobjects : objects ⊆ objects') :
    type.Known enums' objects' := by
  rcases h with hscalar | ⟨name, hname, henum⟩ | ⟨name, hname, hobject⟩
  · exact .inl hscalar
  · exact .inr (.inl ⟨name, henums hname, henum⟩)
  · exact .inr (.inr ⟨name, hobjects hname, hobject⟩)

theorem base_cases (type : TypeRef) :
    (∃ kind, type.base = .scalar kind) ∨ (∃ name, type.base = .enumeration name) ∨
      ∃ name, type.base = .object name := by
  induction type with
  | enumeration name => exact .inr (.inl ⟨name, rfl⟩)
  | list inner ih => exact ih
  | object name => exact .inr (.inr ⟨name, rfl⟩)
  | optional inner ih => exact ih
  | scalar kind => exact .inl ⟨kind, rfl⟩

/-- Peeling off lists first and optionality then leaves the same. -/
theorem required_element (type : TypeRef) : type.element.required = type.base := by
  induction type with
  | enumeration name => rfl
  | list inner ih => exact ih
  | object name => rfl
  | optional inner ih =>
    cases h : inner.belowLists? with
    | none => simpa [element, belowLists?, h, required, base] using ih
    | some below => simpa [element, belowLists?, h, base] using ih
  | scalar kind => rfl

theorem isCollection_element (type : TypeRef) : type.element.isCollection = false := by
  rw [isCollection, required_element]
  rcases type.base_cases with ⟨kind, h⟩ | ⟨name, h⟩ | ⟨name, h⟩ <;> rw [h]

theorem belowLists?_eq_none_iff {type : TypeRef} :
    type.belowLists? = none ↔ type.isCollection = false := by
  induction type with
  | enumeration name => exact iff_of_true rfl rfl
  | list inner ih => simp [belowLists?, isCollection, required]
  | object name => exact iff_of_true rfl rfl
  | optional inner ih => exact ih
  | scalar kind => exact iff_of_true rfl rfl

theorem element_eq_self_iff {type : TypeRef} : type.element = type ↔ type.isCollection = false := by
  refine ⟨fun h => ?_, fun h => ?_⟩
  · rw [← h]
    exact type.isCollection_element
  · rw [element, belowLists?_eq_none_iff.mpr h, Option.getD_none]

theorem element_element (type : TypeRef) : type.element.element = type.element :=
  element_eq_self_iff.mpr type.isCollection_element

theorem objectName?_element (type : TypeRef) : type.element.objectName? = type.objectName? := by
  rw [objectName?, objectName?, element_element]

theorem objectName?_eq_some_iff {type : TypeRef} {name : String} :
    type.objectName? = some name ↔ type.base = .object name := by
  rw [objectName?, required_element]
  rcases type.base_cases with ⟨kind, h⟩ | ⟨other, h⟩ | ⟨other, h⟩ <;> simp [h]

theorem isLeaf_element_eq_false_iff {type : TypeRef} :
    type.element.isLeaf = false ↔ ∃ name, type.base = .object name := by
  rw [isLeaf, required_element]
  rcases type.base_cases with ⟨kind, h⟩ | ⟨name, h⟩ | ⟨name, h⟩ <;> simp [h]

/-- Where there is no object type to select from, there is a leaf. -/
theorem objectName?_eq_none_iff {type : TypeRef} :
    type.objectName? = none ↔ type.element.isLeaf = true := by
  rw [← Bool.not_eq_false, isLeaf_element_eq_false_iff, Option.eq_none_iff_forall_ne_some]
  simp only [ne_eq, objectName?_eq_some_iff, not_exists]

end TypeRef

theorem Field.isLeaf_eq_false_iff {field : Field} :
    field.isLeaf = false ↔ ∃ name, field.type.base = .object name :=
  TypeRef.isLeaf_element_eq_false_iff

namespace Registry

/-- Every field of every object type refers to something that is there. -/
def Closed (registry : Registry) : Prop :=
  ∀ type ∈ registry.objects.values, ∀ field ∈ type.fields,
    field.type.Known registry.enums registry.objects.keys

/-- Every object type of the one is in the other, under the same name. -/
def Within (registry larger : Registry) : Prop :=
  ∀ name type, registry.object? name = some type → larger.object? name = some type

theorem within_of_entries {registry larger : Registry}
    (h : ∀ entry ∈ registry.objects.toList, larger.object? entry.1 = some entry.2) :
    registry.Within larger := by
  intro name type hobject
  obtain ⟨entry, hentry, rfl⟩ := Option.map_eq_some_iff.mp hobject
  obtain rfl : entry.1 = name := by simpa using List.find?_some hentry
  exact h entry (List.mem_of_find?_eq_some hentry)

namespace Draft

theorem missing?_eq_none_iff {draft : Draft} {field : Field} :
    draft.missing? field = none ↔ field.type.Known draft.enums draft.objects.keys := by
  rw [missing?, TypeRef.required_element, TypeRef.Known]
  rcases field.type.base_cases with ⟨kind, h⟩ | ⟨name, h⟩ | ⟨name, h⟩ <;> simp [h]

theorem dangling_eq_nil_iff {draft : Draft} :
    draft.dangling = [] ↔ ∀ type ∈ draft.objects.values, ∀ field ∈ type.fields,
      field.type.Known draft.enums draft.objects.keys := by
  simp only [dangling, List.flatMap_eq_nil_iff, List.filterMap_eq_nil_iff, Option.map_eq_none_iff,
    missing?_eq_none_iff]

/-- A draft is finished exactly if nothing in it dangles, and then it is kept as it is. -/
theorem build_eq_ok_iff {draft : Draft} {registry : Registry} :
    draft.build = .ok registry ↔ registry = ⟨draft.enums, draft.objects⟩ ∧ registry.Closed := by
  have hclosed : Closed ⟨draft.enums, draft.objects⟩ ↔ draft.dangling = [] :=
    dangling_eq_nil_iff.symm
  unfold build
  cases hdangling : draft.dangling with
  | nil =>
    simp only [Except.ok.injEq]
    constructor
    · rintro rfl
      exact ⟨rfl, hclosed.mpr hdangling⟩
    · rintro ⟨rfl, -⟩
      rfl
  | cons first rest =>
    simp only [reduceCtorEq, false_iff, not_and]
    rintro rfl h
    rw [hclosed.mp h] at hdangling
    contradiction

end Draft

/-- The object type that a field of a registered type refers to is registered. -/
theorem Closed.exists_object {registry : Registry} (h : registry.Closed) {owner name : String}
    {type : ObjectType} {field : Field} (howner : registry.object? owner = some type)
    (hfield : field ∈ type.fields) (hbase : field.type.base = .object name) :
    ∃ child, registry.object? name = some child := by
  rcases h type (OrderedMap.mem_values_of_get? howner) field hfield with
    ⟨kind, hscalar⟩ | ⟨other, -, henum⟩ | ⟨other, hmem, hobject⟩
  · rw [hbase] at hscalar
    contradiction
  · rw [hbase] at henum
    contradiction
  · obtain rfl : name = other := TypeRef.object.inj (hbase.symm.trans hobject)
    exact OrderedMap.exists_get?_of_mem_keys hmem

end Registry

end PathQuery.Schema
