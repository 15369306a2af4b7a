import PathQuery.Schema.Registry
/-!
# Registries that come from drafts

A registry is a record like any other, and nothing in it says that its names are names. What says
so is where it comes from: a draft that took its enumerations and object types one by one, each
object type from a draft that took its fields one by one. `Built` are the registries that come about
this way, those of models among them, and whatever the drafts check on the way holds of them.
-/

namespace PathQuery.Schema

theorem bind_eq_ok_iff {ε α β : Type} {x : Except ε α} {f : α → Except ε β} {b : β} :
    x >>= f = .ok b ↔ ∃ a, x = .ok a ∧ f a = .ok b := by
  cases x with
  | error e => simp [bind, Except.bind]
  | ok a => simp [bind, Except.bind]

/-- What every step of a fold keeps holds at its end. -/
theorem foldlM_preserves {α β ε : Type} {P : β → Prop} {f : β → α → Except ε β}
    (hstep : ∀ before item after, P before → f before item = .ok after → P after)
    {items : List α} {first last : β} (hfirst : P first)
    (h : items.foldlM f first = .ok last) : P last := by
  induction items generalizing first with
  | nil =>
    obtain rfl : first = last := Except.ok.inj h
    exact hfirst
  | cons item rest ih =>
    rw [List.foldlM_cons, bind_eq_ok_iff] at h
    obtain ⟨next, hnext, hrest⟩ := h
    exact ih (hstep first item next hfirst hnext) hrest

/-- The names of the scalars, which no type of a model may have. -/
def reserved : List String := ["Boolean", "Float", "ID", "Int", "String"]

structure Usable (name : String) : Prop where
  isValid : Name.isValid name = true
  not_reserved : name ∉ reserved

namespace ObjectType

/-- The drafts of object types: fields are added to a name. -/
inductive Draft.Made : Draft → Prop
  | start (name : String) : Made ⟨name, []⟩
  | addField {draft next : Draft} {field : Field} (made : Made draft)
      (add : draft.addField field = .ok next) : Made next

def Built (type : ObjectType) : Prop := ∃ draft : Draft, draft.Made ∧ draft.build = .ok type

/-- The names of all fields are names. -/
def WellNamed (type : ObjectType) : Prop :=
  ∀ field ∈ type.fields, Name.isValid field.name = true

theorem Draft.addField_eq_ok_iff {draft next : Draft} {field : Field} :
    draft.addField field = .ok next ↔
      Name.isValid field.name = true ∧ (∀ other ∈ draft.fields, other.name ≠ field.name) ∧
        next = ⟨draft.name, draft.fields ++ [field]⟩ := by
  unfold addField
  by_cases hname : Name.isValid field.name = true
  · by_cases htaken : draft.fields.any (·.name == field.name) = true
    · simp only [hname, Bool.not_true, Bool.false_eq_true, if_false, htaken, if_true, reduceCtorEq,
        false_iff]
      rintro ⟨-, hfree, -⟩
      obtain ⟨other, hother, hsame⟩ := List.any_eq_true.mp htaken
      exact hfree other hother (by simpa using hsame)
    · have hfree : ∀ other ∈ draft.fields, other.name ≠ field.name := by simpa using htaken
      simp only [hname, Bool.not_true, Bool.false_eq_true, if_false, htaken, Except.ok.injEq,
        true_and]
      exact ⟨fun h => ⟨hfree, h.symm⟩, fun h => h.2.symm⟩
  · simp [hname]

theorem Draft.Made.isValid_field {draft : Draft} (h : draft.Made) :
    ∀ field ∈ draft.fields, Name.isValid field.name = true := by
  induction h with
  | start name => simp
  | addField made add ih =>
    obtain ⟨hname, -, rfl⟩ := addField_eq_ok_iff.mp add
    intro other hother
    rcases List.mem_append.mp hother with hother | hother
    · exact ih other hother
    · exact List.mem_singleton.mp hother ▸ hname

theorem Draft.Made.nodup_names {draft : Draft} (h : draft.Made) :
    (draft.fields.map Field.name).Nodup := by
  induction h with
  | start name => exact List.nodup_nil
  | addField made add ih =>
    obtain ⟨-, hfree, rfl⟩ := addField_eq_ok_iff.mp add
    rw [List.map_append, List.map_singleton, List.nodup_append]
    refine ⟨ih, by simp, ?_⟩
    intro name hname other hother
    obtain ⟨field, hfield, rfl⟩ := List.mem_map.mp hname
    exact List.mem_singleton.mp hother ▸ hfree field hfield

theorem Built.exists_made {type : ObjectType} (h : type.Built) :
    ∃ draft : Draft, draft.Made ∧ draft.fields = type.fields := by
  obtain ⟨draft, hmade, hbuild⟩ := h
  unfold Draft.build at hbuild
  split at hbuild
  · obtain rfl := Except.ok.inj hbuild
    exact ⟨draft, hmade, rfl⟩
  · contradiction

theorem Built.wellNamed {type : ObjectType} (h : type.Built) : type.WellNamed := by
  obtain ⟨draft, hmade, hfields⟩ := h.exists_made
  rw [WellNamed, ← hfields]
  exact hmade.isValid_field

theorem Built.nodup_names {type : ObjectType} (h : type.Built) :
    (type.fields.map Field.name).Nodup := by
  obtain ⟨draft, hmade, hfields⟩ := h.exists_made
  rw [← hfields]
  exact hmade.nodup_names

end ObjectType

namespace Registry

/-- The drafts of registries: enumerations and finished object types are added to none. -/
inductive Draft.Made : Draft → Prop
  | empty : Made Draft.empty
  | addEnum {draft next : Draft} {name : String} (made : Made draft)
      (add : draft.addEnum name = .ok next) : Made next
  | addObject {draft next : Draft} {type : ObjectType} (made : Made draft) (built : type.Built)
      (add : draft.addObject type = .ok next) : Made next

def Built (registry : Registry) : Prop := ∃ draft : Draft, draft.Made ∧ draft.build = .ok registry

namespace Draft

def Taken (draft : Draft) (name : String) : Prop :=
  name ∈ draft.enums ∨ name ∈ draft.objects.keys

theorem checkName_eq_ok_iff {draft : Draft} {name : String} :
    draft.checkName name = .ok () ↔ Usable name ∧ ¬draft.Taken name := by
  have hreserved : Scalar.all.any (·.name == name) = true ↔ name ∈ reserved := by
    have hnames : reserved = Scalar.all.map Scalar.name := rfl
    rw [hnames, List.any_eq_true, List.mem_map]
    simp only [beq_iff_eq]
  have husable : Usable name ↔ Name.isValid name = true ∧ name ∉ reserved :=
    ⟨fun h => ⟨h.1, h.2⟩, fun h => ⟨h.1, h.2⟩⟩
  have hrefused : (Scalar.all.any (·.name == name) || draft.enums.contains name ||
      draft.objects.contains name) = true ↔ name ∈ reserved ∨ draft.Taken name := by
    simp only [Bool.or_eq_true, hreserved, List.contains_iff_mem,
      OrderedMap.contains_eq_true_iff, or_assoc, Taken]
  unfold checkName
  by_cases hvalid : Name.isValid name = true
  · by_cases htaken : name ∈ reserved ∨ draft.Taken name
    · simp only [hvalid, Bool.not_true, Bool.false_eq_true, if_false, hrefused.mpr htaken, if_true,
        reduceCtorEq, husable, true_and, false_iff]
      exact fun h => htaken.elim h.1 h.2
    · rw [if_neg (by simp [hvalid]), if_neg (mt hrefused.mp htaken)]
      rw [not_or] at htaken
      exact iff_of_true rfl ⟨husable.mpr ⟨hvalid, htaken.1⟩, htaken.2⟩
  · simp [hvalid, husable]

theorem checkName_bind_eq_ok_iff {draft grown next : Draft} {name : String} :
    (draft.checkName name >>= fun _ => pure grown) = .ok next ↔
      (Usable name ∧ ¬draft.Taken name) ∧ next = grown := by
  rw [bind_eq_ok_iff, ← checkName_eq_ok_iff]
  constructor
  · intro h
    obtain ⟨_, hcheck, hgrown⟩ := h
    exact ⟨hcheck, (Except.ok.inj hgrown).symm⟩
  · intro h
    obtain ⟨hcheck, rfl⟩ := h
    exact ⟨(), hcheck, rfl⟩

theorem addEnum_eq_ok_iff {draft next : Draft} {name : String} :
    draft.addEnum name = .ok next ↔
      (Usable name ∧ ¬draft.Taken name) ∧ next = ⟨draft.enums ++ [name], draft.objects⟩ :=
  checkName_bind_eq_ok_iff

theorem addObject_eq_ok_iff {draft next : Draft} {type : ObjectType} :
    draft.addObject type = .ok next ↔
      (Usable type.name ∧ ¬draft.Taken type.name) ∧
        next = ⟨draft.enums, draft.objects.insert type.name type⟩ :=
  checkName_bind_eq_ok_iff

end Draft

theorem Draft.Made.object_built {draft : Draft} (h : draft.Made) {name : String}
    {type : ObjectType} (hobject : draft.objects.get? name = some type) : type.Built := by
  induction h with
  | empty => contradiction
  | addEnum made add ih =>
    obtain ⟨-, rfl⟩ := addEnum_eq_ok_iff.mp add
    exact ih hobject
  | @addObject draft next added made built add ih =>
    obtain ⟨-, rfl⟩ := addObject_eq_ok_iff.mp add
    by_cases hname : name = added.name
    · subst hname
      rw [OrderedMap.get?_insert_self] at hobject
      exact Option.some.inj hobject ▸ built
    · rw [OrderedMap.get?_insert_of_ne _ hname] at hobject
      exact ih hobject

/-- The types of a registry come from drafts as well. -/
theorem Built.object_built {registry : Registry} (h : registry.Built) {name : String}
    {type : ObjectType} (hobject : registry.object? name = some type) : type.Built := by
  obtain ⟨draft, hmade, hbuild⟩ := h
  unfold Draft.build at hbuild
  split at hbuild
  · obtain rfl := Except.ok.inj hbuild
    exact hmade.object_built hobject
  · contradiction

/-- The fields of a registered type have names. -/
theorem Built.wellNamed {registry : Registry} (h : registry.Built) {name : String}
    {type : ObjectType} (hobject : registry.object? name = some type) : type.WellNamed :=
  (h.object_built hobject).wellNamed

end Registry

namespace Model

theorem made_of_addFields {draft last : ObjectType.Draft} {fields : List Field}
    (hmade : draft.Made) (h : draft.addFields fields = .ok last) : last.Made :=
  foldlM_preserves (fun _ _ _ made add => .addField made add) hmade h

theorem made_of_addDeclared {draft next : Registry.Draft} {declared : ObjectType.Draft}
    (hmade : draft.Made) (h : addDeclared draft declared = .ok next) : next.Made := by
  simp only [addDeclared, bind_eq_ok_iff] at h
  obtain ⟨checked, hchecked, type, htype, hadd⟩ := h
  exact .addObject hmade ⟨checked, made_of_addFields (.start _) hchecked, htype⟩ hadd

/-- The registry of a model is built from drafts. -/
theorem built_of_registry {model : Model} {registry : Registry}
    (h : model.registry = .ok registry) : registry.Built := by
  simp only [Model.registry, bind_eq_ok_iff] at h
  obtain ⟨enums, henums, draft, hobjects, hbuild⟩ := h
  have hmade : enums.Made :=
    foldlM_preserves (fun _ _ _ made add => .addEnum made add) .empty henums
  exact ⟨draft, foldlM_preserves (fun _ _ _ made => made_of_addDeclared made) hmade hobjects,
    hbuild⟩

end Model

end PathQuery.Schema
