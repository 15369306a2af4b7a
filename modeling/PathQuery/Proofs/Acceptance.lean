import Mathlib.Data.List.Perm.Basic
import PathQuery.Proofs.References
/-!
# Which models are accepted

The checks on a model are spread over its assembly: a field is checked when it is added to its type,
a type when it is added to the registry, the references when everything is there. Each of the folds
in between only asks that an item is sound by itself and that its name is not taken yet, so all of
them together ask for something that does not mention any order: names that are names, no name
twice, and no reference to what is not there (`Model.WellFormed`). A model that is well formed is
accepted, and the registry keeps it as it is written down.
-/

namespace PathQuery.Schema

namespace Model

/-- The names of all types, enumerations first. -/
def typeNames (model : Model) : List String :=
  model.enums ++ model.objects.map ObjectType.Draft.name

/-- What a model has to be like. Nothing here depends on what stands in front of what. -/
structure WellFormed (model : Model) : Prop where
  usable : ∀ name ∈ model.typeNames, Usable name
  nodup : model.typeNames.Nodup
  fieldNames : ∀ object ∈ model.objects, ∀ field ∈ object.fields, Name.isValid field.name = true
  nodup_fields : ∀ object ∈ model.objects, (object.fields.map Field.name).Nodup
  known : ∀ object ∈ model.objects, ∀ field ∈ object.fields,
    field.type.Known model.enums (model.objects.map ObjectType.Draft.name)

/-- The object types of a model under their names, as they are written down. -/
def entries (model : Model) : List (String × ObjectType) :=
  model.objects.map fun object => (object.name, ⟨object.name, object.fields⟩)

/-- The same object type with its fields in another order. -/
def SameFields (object other : ObjectType.Draft) : Prop :=
  object.name = other.name ∧ object.fields.Perm other.fields

/-- The same model with its enumerations, its object types and their fields in other orders. -/
structure Rearranged (model other : Model) : Prop where
  enums : model.enums.Perm other.enums
  objects : ∃ moved, model.objects.Perm moved ∧ List.Forall₂ SameFields moved other.objects

end Model

/-! ### Assembling one by one -/

section Assembly

variable {α β κ ε : Type} {f : β → α → Except ε β} (Sound : α → Prop) (Taken : β → κ → Prop)
  (key : α → κ) (add : β → α → β)

/-- Where each item has to be sound and its key must not be taken, all items have to be sound, and
their keys have to be distinct and not taken from the start. -/
theorem foldlM_eq_ok_iff
    (hstep : ∀ state item next,
      f state item = .ok next ↔ (Sound item ∧ ¬Taken state (key item)) ∧ next = add state item)
    (htaken : ∀ state item k, Taken (add state item) k ↔ Taken state k ∨ k = key item)
    {items : List α} {first last : β} :
    items.foldlM f first = .ok last ↔
      (∀ item ∈ items, Sound item ∧ ¬Taken first (key item)) ∧ (items.map key).Nodup ∧
        last = items.foldl add first := by
  induction items generalizing first with
  | nil => simp [pure, Except.pure, eq_comm]
  | cons item rest ih =>
    rw [List.foldlM_cons, bind_eq_ok_iff, List.forall_mem_cons, List.map_cons, List.nodup_cons,
      List.foldl_cons]
    simp only [hstep, ih]
    constructor
    · intro h
      obtain ⟨_, ⟨hitem, rfl⟩, hrest, hnodup, hlast⟩ := h
      refine ⟨⟨hitem, ?_⟩, ⟨?_, hnodup⟩, hlast⟩
      · intro other hother
        obtain ⟨hsound, hfree⟩ := hrest other hother
        exact ⟨hsound, fun htaken' => hfree ((htaken first item _).mpr (.inl htaken'))⟩
      · intro hmem
        obtain ⟨other, hother, hsame⟩ := List.mem_map.mp hmem
        exact (hrest other hother).2 ((htaken first item _).mpr (.inr hsame))
    · intro h
      obtain ⟨⟨hitem, hrest⟩, ⟨hnew, hnodup⟩, hlast⟩ := h
      refine ⟨_, ⟨hitem, rfl⟩, ?_, hnodup, hlast⟩
      intro other hother
      obtain ⟨hsound, hfree⟩ := hrest other hother
      refine ⟨hsound, ?_⟩
      intro htaken'
      rcases (htaken first item _).mp htaken' with hbefore | hsame
      · exact hfree hbefore
      · exact hnew (hsame ▸ List.mem_map_of_mem hother)

end Assembly

/-! ### The parts of an assembly -/

namespace ObjectType.Draft

/-- A declared object type that can be registered, if its name is not taken. -/
structure Sound (declared : Draft) : Prop where
  usable : Usable declared.name
  fieldNames : ∀ field ∈ declared.fields, Name.isValid field.name = true
  nodup_fields : (declared.fields.map Field.name).Nodup

def Taken (draft : Draft) (name : String) : Prop := ∃ field ∈ draft.fields, field.name = name

theorem addFields_eq_ok_iff {name : String} {fields : List Field} {last : Draft} :
    addFields ⟨name, []⟩ fields = .ok last ↔
      (∀ field ∈ fields, Name.isValid field.name = true) ∧ (fields.map Field.name).Nodup ∧
        last = ⟨name, fields⟩ := by
  have hstep : ∀ (draft : Draft) (field : Field) (next : Draft),
      draft.addField field = .ok next ↔
        (Name.isValid field.name = true ∧ ¬draft.Taken field.name) ∧
          next = ⟨draft.name, draft.fields ++ [field]⟩ := by
    intro draft field next
    rw [addField_eq_ok_iff, and_assoc]
    simp only [Taken, not_exists, not_and, ne_eq]
  have htaken : ∀ (draft : Draft) (field : Field) (other : String),
      Taken ⟨draft.name, draft.fields ++ [field]⟩ other ↔
        draft.Taken other ∨ other = field.name := by
    intro draft field other
    simp [Taken, or_and_right, exists_or, eq_comm]
  have hlast : ∀ draft : Draft, fields.foldl
      (fun draft field => (⟨draft.name, draft.fields ++ [field]⟩ : Draft)) draft =
        ⟨draft.name, draft.fields ++ fields⟩ := by
    induction fields with
    | nil => simp
    | cons field rest ih => simp [ih]
  rw [addFields, foldlM_eq_ok_iff _ _ _ _ hstep htaken, hlast]
  simp [Taken]

end ObjectType.Draft

theorem Registry.Draft.taken_insert_iff {draft : Draft} {type : ObjectType} {name other : String} :
    Taken ⟨draft.enums, draft.objects.insert name type⟩ other ↔
      draft.Taken other ∨ other = name := by
  simp only [Taken, OrderedMap.keys_insert]
  split
  · rename_i hmem
    grind
  · simp [or_assoc]

namespace Model

open Registry (Draft)

theorem addDeclared_eq_ok_iff {draft next : Draft} {declared : ObjectType.Draft} :
    addDeclared draft declared = .ok next ↔
      (declared.Sound ∧ ¬draft.Taken declared.name) ∧
        next = ⟨draft.enums, draft.objects.insert declared.name
          ⟨declared.name, declared.fields⟩⟩ := by
  simp only [addDeclared, bind_eq_ok_iff, ObjectType.Draft.addFields_eq_ok_iff]
  constructor
  · intro h
    obtain ⟨_, ⟨hnames, hnodup, rfl⟩, type, hbuild, hadd⟩ := h
    unfold ObjectType.Draft.build at hbuild
    split at hbuild
    · obtain rfl := Except.ok.inj hbuild
      obtain ⟨⟨husable, hfree⟩, hnext⟩ := Draft.addObject_eq_ok_iff.mp hadd
      exact ⟨⟨⟨husable, hnames, hnodup⟩, hfree⟩, hnext⟩
    · contradiction
  · intro h
    obtain ⟨⟨⟨husable, hnames, hnodup⟩, hfree⟩, hnext⟩ := h
    exact ⟨_, ⟨hnames, hnodup, rfl⟩, _, if_pos husable.isValid,
      Draft.addObject_eq_ok_iff.mpr ⟨⟨husable, hfree⟩, hnext⟩⟩

theorem addEnums_eq_ok_iff {enums : List String} {draft : Draft} :
    enums.foldlM Draft.addEnum Draft.empty = .ok draft ↔
      (∀ name ∈ enums, Usable name) ∧ enums.Nodup ∧ draft = ⟨enums, ∅⟩ := by
  have htaken : ∀ (draft : Draft) (name other : String),
      Draft.Taken ⟨draft.enums ++ [name], draft.objects⟩ other ↔
        draft.Taken other ∨ other = id name := by
    intro draft name other
    simp [Draft.Taken, or_right_comm]
  have hlast : ∀ draft : Draft, enums.foldl
      (fun draft name => (⟨draft.enums ++ [name], draft.objects⟩ : Draft)) draft =
        ⟨draft.enums ++ enums, draft.objects⟩ := by
    induction enums with
    | nil => simp
    | cons name rest ih => simp [ih]
  rw [foldlM_eq_ok_iff _ _ id _ (fun _ _ _ => Draft.addEnum_eq_ok_iff) htaken, hlast]
  simp [Draft.Taken, Draft.empty, OrderedMap.keys]

theorem addObjects_eq_ok_iff {enums : List String} {objects : List ObjectType.Draft}
    {draft : Draft} :
    objects.foldlM addDeclared ⟨enums, ∅⟩ = .ok draft ↔
      (∀ object ∈ objects, object.Sound ∧ object.name ∉ enums) ∧
        (objects.map ObjectType.Draft.name).Nodup ∧ draft.enums = enums ∧
        draft.objects.toList = entries ⟨enums, objects⟩ := by
  have hlast : ∀ draft : Draft, objects.foldl
      (fun draft declared => (⟨draft.enums, draft.objects.insert declared.name
        ⟨declared.name, declared.fields⟩⟩ : Draft)) draft =
        ⟨draft.enums, (entries ⟨enums, objects⟩).foldl
          (fun m entry => m.insert entry.1 entry.2) draft.objects⟩ := by
    simp only [entries]
    induction objects with
    | nil => simp
    | cons object rest ih => simp [ih]
  have hfree : ∀ name, Draft.Taken ⟨enums, ∅⟩ name ↔ name ∈ enums := by
    simp [Draft.Taken, OrderedMap.keys]
  rw [foldlM_eq_ok_iff _ _ ObjectType.Draft.name _ (fun _ _ _ => addDeclared_eq_ok_iff)
    (fun _ _ _ => Draft.taken_insert_iff), hlast]
  simp only [hfree]
  refine and_congr_right fun _ => and_congr_right fun hnodup => ?_
  have hkeys : ((entries ⟨enums, objects⟩).map Prod.fst).Nodup := by
    simpa [entries, Function.comp_def] using hnodup
  have htoList := OrderedMap.toList_foldl_insert ∅ hkeys (by simp [OrderedMap.keys])
  constructor
  · intro h
    subst h
    exact ⟨rfl, htoList⟩
  · intro h
    obtain ⟨henums, hobjects⟩ := h
    obtain ⟨_, _⟩ := draft
    subst henums
    congr
    exact OrderedMap.ext (hobjects.trans htoList.symm)

theorem closed_iff {model : Model} {registry : Registry} (henums : registry.enums = model.enums)
    (hentries : registry.objects.toList = model.entries) :
    registry.Closed ↔ ∀ object ∈ model.objects, ∀ field ∈ object.fields,
      field.type.Known model.enums (model.objects.map ObjectType.Draft.name) := by
  have hkeys : registry.objects.keys = model.objects.map ObjectType.Draft.name := by
    simp [OrderedMap.keys, hentries, entries, Function.comp_def]
  simp [Registry.Closed, OrderedMap.values, henums, hentries, hkeys, entries]

/-- All steps of an assembly at once. -/
theorem registry_eq_ok_iff {model : Model} {registry : Registry} :
    model.registry = .ok registry ↔
      model.WellFormed ∧ registry.enums = model.enums ∧
        registry.objects.toList = model.entries := by
  simp only [Model.registry, bind_eq_ok_iff, Registry.Draft.build_eq_ok_iff]
  constructor
  · intro h
    obtain ⟨_, henums, draft, hobjects, rfl, hclosed⟩ := h
    obtain ⟨husable, hnodup, rfl⟩ := addEnums_eq_ok_iff.mp henums
    obtain ⟨hsound, hdistinct, henums, hentries⟩ := addObjects_eq_ok_iff.mp hobjects
    refine ⟨⟨?_, ?_, ?_, ?_, (closed_iff henums hentries).mp hclosed⟩, henums, hentries⟩
    · rw [typeNames, List.forall_mem_append, List.forall_mem_map]
      exact ⟨husable, fun object hobject => (hsound object hobject).1.usable⟩
    · rw [typeNames, List.nodup_append]
      refine ⟨hnodup, hdistinct, ?_⟩
      intro name hname other hother hsame
      obtain ⟨object, hobject, rfl⟩ := List.mem_map.mp hother
      exact (hsound object hobject).2 (hsame ▸ hname)
    · exact fun object hobject => (hsound object hobject).1.fieldNames
    · exact fun object hobject => (hsound object hobject).1.nodup_fields
  · intro h
    obtain ⟨hmodel, henums, hentries⟩ := h
    have husable := hmodel.usable
    rw [typeNames, List.forall_mem_append, List.forall_mem_map] at husable
    obtain ⟨hnodup, hdistinct, hdisjoint⟩ := List.nodup_append.mp hmodel.nodup
    refine ⟨⟨model.enums, ∅⟩, addEnums_eq_ok_iff.mpr ⟨husable.1, hnodup, rfl⟩,
      ⟨registry.enums, registry.objects⟩, ?_, rfl, (closed_iff henums hentries).mpr hmodel.known⟩
    refine addObjects_eq_ok_iff.mpr ⟨?_, hdistinct, henums, hentries⟩
    intro object hobject
    refine ⟨⟨husable.2 object hobject, hmodel.fieldNames object hobject,
      hmodel.nodup_fields object hobject⟩, ?_⟩
    intro hmem
    exact hdisjoint object.name hmem object.name (List.mem_map_of_mem hobject) rfl

/-! ### Other orders -/

theorem map_name_of_sameFields {objects others : List ObjectType.Draft}
    (h : List.Forall₂ SameFields objects others) :
    objects.map ObjectType.Draft.name = others.map ObjectType.Draft.name := by
  induction h with
  | nil => rfl
  | cons hhead _ ih => rw [List.map_cons, List.map_cons, hhead.1, ih]

theorem exists_of_sameFields {objects others : List ObjectType.Draft}
    (h : List.Forall₂ SameFields objects others) {other : ObjectType.Draft}
    (hother : other ∈ others) : ∃ object ∈ objects, SameFields object other := by
  induction h with
  | nil => contradiction
  | cons hhead _ ih =>
    rcases List.mem_cons.mp hother with rfl | htail
    · exact ⟨_, List.mem_cons_self, hhead⟩
    · obtain ⟨object, hobject, hsame⟩ := ih htail
      exact ⟨object, List.mem_cons_of_mem _ hobject, hsame⟩

namespace Rearranged

variable {model other : Model}

theorem symm (h : model.Rearranged other) : other.Rearranged model := by
  obtain ⟨henums, moved, hmoved, hsame⟩ := h
  have hback : List.Forall₂ SameFields other.objects moved :=
    (hsame.imp fun _ _ h => ⟨h.1.symm, h.2.symm⟩).flip
  have hcomp : Relation.Comp (List.Forall₂ SameFields) List.Perm other.objects model.objects :=
    ⟨moved, hback, hmoved.symm⟩
  rw [List.forall₂_comp_perm_eq_perm_comp_forall₂] at hcomp
  exact ⟨henums.symm, hcomp⟩

theorem objectNames_perm (h : model.Rearranged other) :
    (model.objects.map ObjectType.Draft.name).Perm (other.objects.map ObjectType.Draft.name) := by
  obtain ⟨-, moved, hmoved, hsame⟩ := h
  rw [← map_name_of_sameFields hsame]
  exact hmoved.map _

theorem typeNames_perm (h : model.Rearranged other) : model.typeNames.Perm other.typeNames :=
  h.enums.append h.objectNames_perm

theorem exists_object (h : model.Rearranged other) {another : ObjectType.Draft}
    (hanother : another ∈ other.objects) :
    ∃ object ∈ model.objects, object.fields.Perm another.fields := by
  obtain ⟨-, moved, hmoved, hsame⟩ := h
  obtain ⟨object, hobject, -, hfields⟩ := exists_of_sameFields hsame hanother
  exact ⟨object, hmoved.mem_iff.mpr hobject, hfields⟩

end Rearranged

theorem WellFormed.rearranged {model other : Model} (h : model.WellFormed)
    (hother : model.Rearranged other) : other.WellFormed := by
  have hnames := hother.typeNames_perm
  refine ⟨fun name hname => h.usable name (hnames.mem_iff.mpr hname),
    hnames.nodup_iff.mp h.nodup, ?_, ?_, ?_⟩
  · intro another hanother field hfield
    obtain ⟨object, hobject, hfields⟩ := hother.exists_object hanother
    exact h.fieldNames object hobject field (hfields.mem_iff.mpr hfield)
  · intro another hanother
    obtain ⟨object, hobject, hfields⟩ := hother.exists_object hanother
    exact (hfields.map Field.name).nodup_iff.mp (h.nodup_fields object hobject)
  · intro another hanother field hfield
    obtain ⟨object, hobject, hfields⟩ := hother.exists_object hanother
    have hknown := h.known object hobject field (hfields.mem_iff.mpr hfield)
    exact hknown.mono hother.enums.subset hother.objectNames_perm.subset

theorem exists_registry_iff {model : Model} :
    (∃ registry, model.registry = .ok registry) ↔ model.WellFormed := by
  constructor
  · intro h
    obtain ⟨registry, hregistry⟩ := h
    exact (registry_eq_ok_iff.mp hregistry).1
  · intro h
    have hkeys : (model.entries.map Prod.fst).Nodup := by
      simpa [entries, Function.comp_def] using (List.nodup_append.mp h.nodup).2.1
    exact ⟨⟨model.enums, ⟨model.entries, hkeys⟩⟩, registry_eq_ok_iff.mpr ⟨h, rfl, rfl⟩⟩

/-- A model is accepted exactly if it is well formed, and then the registry holds what the model
says, in the order of the model. The order has no part in the acceptance. -/
theorem registry_accepts_wellFormed (model : Model) :
    ((∃ registry, model.registry = .ok registry) ↔ model.WellFormed) ∧
      (∀ registry, model.registry = .ok registry →
        registry.enums = model.enums ∧ registry.objects.toList = model.entries) ∧
      ∀ other, model.Rearranged other →
        ((∃ registry, model.registry = .ok registry) ↔
          ∃ registry, other.registry = .ok registry) := by
  refine ⟨exists_registry_iff, fun registry h => (registry_eq_ok_iff.mp h).2, ?_⟩
  intro other hother
  rw [exists_registry_iff, exists_registry_iff]
  exact ⟨fun h => h.rearranged hother, fun h => h.rearranged hother.symm⟩

/-- Routes refer to trips, which come later, and trips to routes. -/
def routes : Model :=
  ⟨["Mode", "Zone"],
    [⟨"Route", [⟨"Mode", .enumeration "Mode"⟩, ⟨"Trips", .list (.object "Trip")⟩]⟩,
      ⟨"Trip", [⟨"GtfsId", .scalar .id⟩, ⟨"Route", .optional (.object "Route")⟩]⟩]⟩

/-- The same model from its end to its beginning. -/
def routesReversed : Model :=
  ⟨["Zone", "Mode"],
    [⟨"Trip", [⟨"Route", .optional (.object "Route")⟩, ⟨"GtfsId", .scalar .id⟩]⟩,
      ⟨"Route", [⟨"Trips", .list (.object "Trip")⟩, ⟨"Mode", .enumeration "Mode"⟩]⟩]⟩

theorem registry_accepts_wellFormed_routes :
    routes.WellFormed ∧ routes.Rearranged routesReversed ∧
      (∃ registry, routes.registry = .ok registry ∧
        registry.objects.toList = routes.entries) ∧
      ∃ registry, routesReversed.registry = .ok registry := by
  obtain ⟨haccepts, hkeeps, horders⟩ := registry_accepts_wellFormed routes
  obtain ⟨registry, hregistry⟩ : ∃ registry, routes.registry = .ok registry := ⟨_, rfl⟩
  have hreversed : routes.Rearranged routesReversed := by
    refine ⟨.swap _ _ _, routes.objects.reverse, .swap _ _ _, ?_⟩
    exact .cons ⟨rfl, .swap _ _ _⟩ (.cons ⟨rfl, .swap _ _ _⟩ .nil)
  exact ⟨haccepts.mp ⟨registry, hregistry⟩, hreversed,
    ⟨registry, hregistry, (hkeeps registry hregistry).2⟩,
    (horders routesReversed hreversed).mp ⟨registry, hregistry⟩⟩

end Model

end PathQuery.Schema
