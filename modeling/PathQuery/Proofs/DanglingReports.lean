import PathQuery.Proofs.Acceptance
/-!
# Reports on dangling references

A draft is assembled by registrations, of enumerations and of object types in any mix. If all of
them succeed, the draft holds what was registered, each kind in its order, and no name is both an
enumeration and an object type. Whether it can be finished is then a matter of its references alone:
every field that refers to what was not registered is reported, each once, by type and then by
field, and nothing else is.
-/

namespace PathQuery.Schema

/-- One step of the assembly of a registry. -/
inductive Registration where
  | enumeration (name : String)
  | object (type : ObjectType)

namespace Registration

def name : Registration → String
  | enumeration name => name
  | object type => type.name

/-- What is registered as an enumeration, in order. -/
def enums : List Registration → List String
  | [] => []
  | enumeration name :: rest => name :: enums rest
  | object _ :: rest => enums rest

/-- What is registered as an object type, in order. -/
def objects : List Registration → List ObjectType
  | [] => []
  | enumeration _ :: rest => objects rest
  | object type :: rest => type :: objects rest

def objectNames (registrations : List Registration) : List String :=
  (objects registrations).map ObjectType.name

/-- The fields of all object types with their owners, by type and then by field. -/
def places (registrations : List Registration) : List (ObjectType × Field) :=
  (objects registrations).flatMap fun type => type.fields.map fun field => (type, field)

theorem mem_places_iff {registrations : List Registration} {type : ObjectType} {field : Field} :
    (type, field) ∈ places registrations ↔ type ∈ objects registrations ∧ field ∈ type.fields := by
  simp only [places, List.mem_flatMap, List.mem_map, Prod.mk.injEq]
  constructor
  · rintro ⟨_, htype, _, hfield, rfl, rfl⟩
    exact ⟨htype, hfield⟩
  · rintro ⟨htype, hfield⟩
    exact ⟨type, htype, field, hfield, rfl, rfl⟩

theorem perm_names (registrations : List Registration) :
    (registrations.map name).Perm
      (enums registrations ++ objectNames registrations) := by
  induction registrations with
  | nil => exact .nil
  | cons registration rest ih =>
    cases registration with
    | enumeration name => exact ih.cons name
    | object type => exact (ih.cons type.name).trans List.perm_middle.symm

end Registration

/-- The field refers to a name that is not there as what the field takes it for. -/
inductive Field.Dangles (enums objects : List String) (field : Field) : String → Prop
  | enumeration {name : String} (base : field.type.base = .enumeration name)
      (absent : name ∉ enums) : Dangles enums objects field name
  | object {name : String} (base : field.type.base = .object name)
      (absent : name ∉ objects) : Dangles enums objects field name

/-- One report for each field that dangles and none for any other, in the order of the fields. -/
inductive Reports (enums objects : List String) : List (ObjectType × Field) → List Dangling → Prop
  | nil : Reports enums objects [] []
  | sound {type field places references}
      (sound : ∀ name, ¬field.Dangles enums objects name)
      (rest : Reports enums objects places references) :
      Reports enums objects ((type, field) :: places) references
  | dangles {type field name places references} (dangles : field.Dangles enums objects name)
      (rest : Reports enums objects places references) :
      Reports enums objects ((type, field) :: places)
        (⟨field.name, name, type.name⟩ :: references)

theorem Field.Dangles.unique {enums objects : List String} {field : Field} {name other : String}
    (h : field.Dangles enums objects name) (hother : field.Dangles enums objects other) :
    name = other := by
  cases h with
  | enumeration hbase _ =>
    cases hother with
    | enumeration hbase' _ => exact TypeRef.enumeration.inj (hbase.symm.trans hbase')
    | object hbase' _ => exact absurd (hbase.symm.trans hbase') (by simp)
  | object hbase _ =>
    cases hother with
    | enumeration hbase' _ => exact absurd (hbase.symm.trans hbase') (by simp)
    | object hbase' _ => exact TypeRef.object.inj (hbase.symm.trans hbase')

theorem Reports.unique {enums objects : List String} {places : List (ObjectType × Field)}
    {references others : List Dangling} (h : Reports enums objects places references)
    (hothers : Reports enums objects places others) : references = others := by
  induction h generalizing others with
  | nil =>
    cases hothers
    rfl
  | sound hsound _ ih =>
    cases hothers with
    | sound _ hrest => exact ih hrest
    | dangles hdangles _ => exact absurd hdangles (hsound _)
  | dangles hdangles _ ih =>
    cases hothers with
    | sound hsound _ => exact absurd hdangles (hsound _)
    | dangles hdangles' hrest => rw [hdangles.unique hdangles', ih hrest]

theorem Reports.eq_nil_iff {enums objects : List String} {places : List (ObjectType × Field)}
    {references : List Dangling} (h : Reports enums objects places references) :
    references = [] ↔ ∀ place ∈ places, ∀ name, ¬place.2.Dangles enums objects name := by
  induction h with
  | nil => simp
  | sound hsound _ ih => rw [ih, List.forall_mem_cons, and_iff_right hsound]
  | dangles hdangles _ _ =>
    simp only [reduceCtorEq, List.forall_mem_cons, false_iff, not_and]
    exact fun hsound => absurd hdangles (hsound _)

namespace Registry.Draft

/-! ### What a draft holds -/

def register (draft : Draft) : Registration → Except Error Draft
  | .enumeration name => draft.addEnum name
  | .object type => draft.addObject type

/-- The draft with one thing more, without any check. -/
def extended (draft : Draft) : Registration → Draft
  | .enumeration name => ⟨draft.enums ++ [name], draft.objects⟩
  | .object type => ⟨draft.enums, draft.objects.insert type.name type⟩

theorem register_eq_ok_iff {draft next : Draft} {registration : Registration} :
    draft.register registration = .ok next ↔
      (Usable registration.name ∧ ¬draft.Taken registration.name) ∧
        next = draft.extended registration := by
  cases registration with
  | enumeration name => exact addEnum_eq_ok_iff
  | object type => exact addObject_eq_ok_iff

theorem taken_extended_iff {draft : Draft} {registration : Registration} {name : String} :
    (draft.extended registration).Taken name ↔ draft.Taken name ∨ name = registration.name := by
  cases registration with
  | enumeration added => simp [extended, Taken, Registration.name, or_right_comm]
  | object type => exact taken_insert_iff

theorem foldl_extended (draft : Draft) (registrations : List Registration) :
    registrations.foldl extended draft =
      ⟨draft.enums ++ Registration.enums registrations,
        ((Registration.objects registrations).map fun type => (type.name, type)).foldl
          (fun m entry => m.insert entry.1 entry.2) draft.objects⟩ := by
  induction registrations generalizing draft with
  | nil => simp [Registration.enums, Registration.objects]
  | cons registration rest ih =>
    rw [List.foldl_cons, ih]
    cases registration <;> simp [extended, Registration.enums, Registration.objects]

/-- What a draft holds once it has taken the registrations. -/
structure Holds (draft : Draft) (registrations : List Registration) : Prop where
  enums : draft.enums = Registration.enums registrations
  objects : draft.objects.values = Registration.objects registrations
  keys : draft.objects.keys = Registration.objectNames registrations
  disjoint : ∀ name ∈ Registration.enums registrations,
    name ∉ Registration.objectNames registrations

theorem holds_of_registered {registrations : List Registration} {draft : Draft}
    (h : registrations.foldlM register Draft.empty = .ok draft) : draft.Holds registrations := by
  obtain ⟨-, hnodup, rfl⟩ := (foldlM_eq_ok_iff (fun registration => Usable registration.name) Taken
    Registration.name extended (fun _ _ _ => register_eq_ok_iff)
    fun _ _ _ => taken_extended_iff).mp h
  rw [(Registration.perm_names registrations).nodup_iff, List.nodup_append] at hnodup
  obtain ⟨-, hobjects, hdisjoint⟩ := hnodup
  have htoList : (registrations.foldl extended Draft.empty).objects.toList =
      (Registration.objects registrations).map fun type => (type.name, type) := by
    rw [foldl_extended]
    exact OrderedMap.toList_foldl_insert ∅
      (by simpa [Registration.objectNames, Function.comp_def] using hobjects)
      (by simp [OrderedMap.keys])
  refine ⟨by simp [foldl_extended, Draft.empty], ?_, ?_,
    fun name hname hother => hdisjoint name hname name hother rfl⟩
  · simp [OrderedMap.values, htoList, Function.comp_def]
  · simp [OrderedMap.keys, htoList, Registration.objectNames]

/-! ### What is reported -/

theorem missing?_eq_some_iff {draft : Draft} {field : Field} {name : String} :
    draft.missing? field = some name ↔ field.Dangles draft.enums draft.objects.keys name := by
  rw [missing?, TypeRef.required_element]
  constructor
  · intro h
    split at h
    · rename_i other hbase
      split at h
      · contradiction
      · rename_i habsent
        obtain rfl := Option.some.inj h
        exact .enumeration hbase (by simpa using habsent)
    · rename_i other hbase
      split at h
      · contradiction
      · rename_i habsent
        obtain rfl := Option.some.inj h
        exact .object hbase (by simpa using habsent)
    · contradiction
  · intro h
    cases h with
    | enumeration hbase habsent => simp [hbase, habsent]
    | object hbase habsent => simp [hbase, habsent]

theorem reports_filterMap (draft : Draft) (places : List (ObjectType × Field)) :
    Reports draft.enums draft.objects.keys places
      (places.filterMap fun place => (draft.missing? place.2).map fun name =>
        ⟨place.2.name, name, place.1.name⟩) := by
  induction places with
  | nil => exact .nil
  | cons place rest ih =>
    cases hmissing : draft.missing? place.2 with
    | none =>
      have hsound : ∀ name, ¬place.2.Dangles draft.enums draft.objects.keys name := by
        intro name hdangles
        rw [missing?_eq_some_iff.mpr hdangles] at hmissing
        contradiction
      simpa [hmissing] using Reports.sound hsound ih
    | some name =>
      simpa [hmissing] using Reports.dangles (missing?_eq_some_iff.mp hmissing) ih

theorem Holds.reports {draft : Draft} {registrations : List Registration}
    (h : draft.Holds registrations) :
    Reports (Registration.enums registrations) (Registration.objectNames registrations)
      (Registration.places registrations) draft.dangling := by
  have hreports := reports_filterMap draft (Registration.places registrations)
  rw [h.enums, h.keys] at hreports
  have hdangling : draft.dangling = (Registration.places registrations).filterMap fun place =>
      (draft.missing? place.2).map fun name => ⟨place.2.name, name, place.1.name⟩ := by
    rw [dangling, h.objects, Registration.places, List.filterMap_flatMap]
    simp only [List.filterMap_map, Function.comp_def]
  rwa [hdangling]

theorem build_eq_error_iff {draft : Draft} {error : Error} :
    draft.build = .error error ↔ draft.dangling ≠ [] ∧ error = .dangling draft.dangling := by
  unfold build
  cases hdangling : draft.dangling with
  | nil => simp
  | cons first rest => simp [eq_comm]

/-- After any registrations that succeed, the draft cannot be finished exactly if a field of some
object type dangles, and then it is the dangling fields that are reported. A name that is registered
as the other kind of type is not there. -/
theorem build_reports_dangling {registrations : List Registration} {draft : Draft}
    (h : registrations.foldlM register Draft.empty = .ok draft) :
    ((∃ error, draft.build = .error error) ↔
      ∃ type ∈ Registration.objects registrations, ∃ field ∈ type.fields, ∃ name,
        field.Dangles (Registration.enums registrations) (Registration.objectNames registrations)
          name) ∧
    (∀ error, draft.build = .error error ↔ ∃ references, references ≠ [] ∧
      error = .dangling references ∧
      Reports (Registration.enums registrations) (Registration.objectNames registrations)
        (Registration.places registrations) references) ∧
    ∀ field : Field, ∀ name,
      field.type.base = .enumeration name ∧ name ∈ Registration.objectNames registrations ∨
        field.type.base = .object name ∧ name ∈ Registration.enums registrations →
      field.Dangles (Registration.enums registrations) (Registration.objectNames registrations)
        name := by
  have hholds := holds_of_registered h
  have hreports := hholds.reports
  refine ⟨?_, fun error => ?_, fun field name => ?_⟩
  · simp only [build_eq_error_iff, exists_and_left, exists_eq, and_true, ne_eq,
      hreports.eq_nil_iff, Prod.forall, Registration.mem_places_iff, not_forall, not_not,
      exists_prop, and_assoc]
  · rw [build_eq_error_iff]
    constructor
    · rintro ⟨hne, rfl⟩
      exact ⟨_, hne, rfl, hreports⟩
    · rintro ⟨references, hne, rfl, hothers⟩
      obtain rfl := hothers.unique hreports
      exact ⟨hne, rfl⟩
  · rintro (⟨hbase, hname⟩ | ⟨hbase, hname⟩)
    · exact .enumeration hbase fun henum => hholds.disjoint name henum hname
    · exact .object hbase (hholds.disjoint name hname)

/-- Routes and trips refer to themselves and to each other. They also refer to an agency that is
nowhere, and take a mode for an object type and a trip for an enumeration. -/
def mixed : List Registration :=
  [.object ⟨"Route", [⟨"Trips", .list (.optional (.list (.object "Trip")))⟩,
      ⟨"Agency", .optional (.object "Agency")⟩, ⟨"Twin", .object "Route"⟩]⟩,
    .enumeration "Mode",
    .object ⟨"Trip", [⟨"Mode", .enumeration "Mode"⟩, ⟨"Modes", .list (.object "Mode")⟩,
      ⟨"Kind", .optional (.enumeration "Trip")⟩, ⟨"Route", .object "Route"⟩]⟩]

theorem build_reports_dangling_of_mixed :
    ∃ draft, mixed.foldlM register Draft.empty = .ok draft ∧
      (∃ type ∈ Registration.objects mixed, ∃ field ∈ type.fields, ∃ name,
        field.Dangles ["Mode"] ["Route", "Trip"] name) ∧
      Reports ["Mode"] ["Route", "Trip"] (Registration.places mixed)
        [⟨"Agency", "Agency", "Route"⟩, ⟨"Modes", "Mode", "Trip"⟩, ⟨"Kind", "Trip", "Trip"⟩] := by
  have hregister : mixed.foldlM register Draft.empty = .ok _ := rfl
  obtain ⟨hfails, hreports, -⟩ := build_reports_dangling hregister
  obtain ⟨references, -, hsame, hplaces⟩ := (hreports _).mp rfl
  obtain rfl := Error.dangling.inj hsame
  exact ⟨_, hregister, hfails.mp ⟨_, rfl⟩, hplaces⟩

end Registry.Draft

end PathQuery.Schema
