import PathQuery.Proofs.Agreement
import PathQuery.Proofs.DeadEnds
import PathQuery.Proofs.Navigation
/-!
# Whom a fault of a path blames

A fault of a path names a segment and a type. What it says is right if the segments in front lead
from the root type to that type, and the segment is the first one from which there is no going on:
it is empty or comes right before an empty end, it addresses no field, or it addresses a leaf with
more of the path behind it. One more fault belongs to the path as a whole, which may lead to a type
on which nothing is selected.

Every fault of a path is right in this sense (`Fails.blames`). The other way round, where no calls
are left to consume, nothing comes in between and a path has the fault that it deserves
(`fails_of_blames`).
-/

namespace PathQuery

open Schema (Field ObjectType Registry)

namespace Schema

theorem ObjectType.field?_eq_none_iff {type : ObjectType} {segment : String} :
    type.field? segment = none ↔ ∀ field ∈ type.fields, field.isNamed segment = false := by
  rw [ObjectType.field?, Option.or_eq_none_iff, List.find?_eq_none, List.find?_eq_none]
  simp only [Bool.not_eq_true]
  constructor
  · exact fun h => h.2
  · intro h
    refine ⟨fun field hfield => ?_, h⟩
    exact (Bool.or_eq_false_iff.mp (h field hfield)).1

/-- Segments lead from a type to a type, each through a field below which there is a type. -/
inductive Registry.Leads (registry : Registry) : List String → ObjectType → ObjectType → Prop
  | here (type : ObjectType) : Leads registry [] type type
  | through {segment : String} {rest : List String} {type child last : ObjectType} {field : Field}
      (field?_eq : type.field? segment = some field) (isLeaf : field.isLeaf = false)
      (below?_eq : registry.below? field = some child) (leads : Leads registry rest child last) :
      Leads registry (segment :: rest) type last

theorem Registry.Leads.wellNamed {registry : Registry} {segments : List String}
    {type last : ObjectType} (h : registry.Leads segments type last) (htype : type.WellNamed)
    (hbuilt : registry.Built) : last.WellNamed := by
  induction h with
  | here type => exact htype
  | through field?_eq isLeaf below?_eq leads ih =>
    obtain ⟨name, -, hobject⟩ := Option.bind_eq_some_iff.mp below?_eq
    exact ih (hbuilt.wellNamed hobject)

theorem Registry.Leads.of_append {registry : Registry} {segments others : List String}
    {type last : ObjectType} (h : registry.Leads (segments ++ others) type last) :
    ∃ between, registry.Leads segments type between ∧ registry.Leads others between last := by
  induction segments generalizing type with
  | nil => exact ⟨type, .here type, h⟩
  | cons segment rest ih =>
    cases h with
    | through field?_eq isLeaf below?_eq leads =>
      obtain ⟨between, hfirst, hsecond⟩ := ih leads
      exact ⟨between, .through field?_eq isLeaf below?_eq hfirst, hsecond⟩

theorem ObjectType.WellNamed.segment_ne {type : ObjectType} (h : type.WellNamed) {segment : String}
    {field : Field} (hfield : type.field? segment = some field) : segment ≠ "" := by
  rintro rfl
  rw [h.field?_empty] at hfield
  contradiction

end Schema

namespace Query

open Selection (Node)

namespace Compiler

variable {compiler : Compiler}

/-- What the faults of a path say, if they are right. -/
inductive Blames (compiler : Compiler) (path : String) (segments : List String)
    (root : ObjectType) : Error → Prop
  /-- A segment is empty, or an empty one is all that comes behind it. -/
  | emptySegment {before rest : List String} {segment : String} {type : ObjectType}
      (split : segments = before ++ segment :: rest)
      (leads : compiler.registry.Leads before root type) (empty : segment = "" ∨ rest = [""]) :
      Blames compiler path segments root (.emptySegment path)
  /-- A segment addresses no field of the type that those in front of it lead to. -/
  | undefinedField {before rest : List String} {segment : String} {type : ObjectType}
      (split : segments = before ++ segment :: rest)
      (leads : compiler.registry.Leads before root type) (full : ¬(segment = "" ∨ rest = [""]))
      (unnamed : ∀ field ∈ type.fields, field.isNamed segment = false) :
      Blames compiler path segments root (.undefinedField path segment type.name)
  /-- A segment addresses a leaf field, and there are more behind it. -/
  | pastLeaf {before rest : List String} {segment : String} {type : ObjectType} {field : Field}
      (split : segments = before ++ segment :: rest)
      (leads : compiler.registry.Leads before root type)
      (field?_eq : type.field? segment = some field) (isLeaf : field.isLeaf = true)
      (more : rest ≠ []) (full : rest ≠ [""]) :
      Blames compiler path segments root (.pastLeaf path segment type.name (Path.join rest))
  /-- All segments lead to a type without leaf fields, where that is refused. -/
  | emptySelection {type : ObjectType} (leads : compiler.registry.Leads segments root type)
      (leafless : type.leafNames = []) (policy : compiler.settings.emptySelection = .reject) :
      Blames compiler path segments root (.emptySelection path type.name)

theorem Blames.blamesNoType {path : String} {segments : List String} {root : ObjectType}
    {error : Error} (h : Blames compiler path segments root error) : error.BlamesNoType := by
  intro name
  cases h <;> simp

/-! ### Faults are right -/

theorem Blames.through {path segment : String} {rest : List String} {type child : ObjectType}
    {field : Field} {error : Error} (field?_eq : type.field? segment = some field)
    (isLeaf : field.isLeaf = false) (below?_eq : compiler.registry.below? field = some child)
    (h : Blames compiler path rest child error) :
    Blames compiler path (segment :: rest) type error := by
  cases h with
  | emptySegment split leads empty =>
    subst split
    exact .emptySegment (List.cons_append).symm (.through field?_eq isLeaf below?_eq leads) empty
  | undefinedField split leads full unnamed =>
    subst split
    exact .undefinedField (List.cons_append).symm (.through field?_eq isLeaf below?_eq leads) full
      unnamed
  | pastLeaf split leads field?_eq' isLeaf' more full =>
    subst split
    exact .pastLeaf (List.cons_append).symm (.through field?_eq isLeaf below?_eq leads) field?_eq'
      isLeaf' more full
  | emptySelection leads leafless policy =>
    exact .emptySelection (.through field?_eq isLeaf below?_eq leads) leafless policy

theorem leavesOf_eq_nil_iff {type : ObjectType} :
    Node.leavesOf type = [] ↔ type.leafNames = [] := by
  rw [Node.leavesOf, List.map_eq_nil_iff]

/-- Where nothing is left out, nothing is selected only at the end of a path. -/
theorem Follows.eq_nil_of_nothing {segments : List String} {type : ObjectType}
    {state after : State} (h : Follows compiler segments type state [] after)
    (hpolicy : compiler.settings.emptySelection = .reject) :
    segments = [] ∧ type.leafNames = [] := by
  generalize hnodes : ([] : List Node) = nodes at h
  cases h with
  | stop => exact ⟨rfl, leavesOf_eq_nil_iff.mp hnodes.symm⟩
  | leaf | branch => contradiction
  | omitted step isLeaf bind target below policy =>
    rw [hpolicy] at policy
    contradiction

/-- What goes wrong on a path is the binding of arguments to a call that was left, a type that is
missing, or a fault of the path that is right. -/
theorem Fails.blames {path : String} {segments : List String} {type : ObjectType} {state : State}
    {error : Error} (h : Fails compiler path segments type state error) :
    (error.OfBinding ∧ state.cursor.pending ≠ []) ∨ (∃ name, error = .undefinedType name) ∨
      Blames compiler path segments type error := by
  induction h with
  | emptySegment empty =>
    exact .inr (.inr (.emptySegment (List.nil_append _).symm (.here _) empty))
  | undefinedField full field?_eq =>
    exact .inr (.inr (.undefinedField (List.nil_append _).symm (.here _) full
      (Schema.ObjectType.field?_eq_none_iff.mp field?_eq)))
  | bind step fault =>
    refine .inl ⟨compiler.failsOnly_bindField _ _ _ fault, fun hexhausted => ?_⟩
    rw [bindField_of_exhausted hexhausted] at fault
    contradiction
  | pastLeaf step isLeaf bind rest_ne =>
    exact .inr (.inr (.pastLeaf (List.nil_append _).symm (.here _) step.field?_eq isLeaf rest_ne
      step.rest_ne))
  | target step isLeaf bind fault => exact .inr (.inl (exists_undefinedType_of_target fault))
  | deeper step isLeaf bind target fails ih =>
    have hbelow := target_eq_ok_iff_below?.mp target
    refine ih.imp ?_ (Or.imp_right (Blames.through step.field?_eq isLeaf hbelow))
    rintro ⟨hbinding, hleft⟩
    refine ⟨hbinding, fun hexhausted => hleft ?_⟩
    rw [bindField_of_exhausted hexhausted] at bind
    obtain ⟨-, rfl⟩ := Prod.mk.inj (Except.ok.inj bind)
    exact hexhausted
  | nothingBelow step isLeaf bind target follows policy =>
    obtain ⟨rfl, hleafless⟩ := follows.eq_nil_of_nothing policy
    have hbelow := target_eq_ok_iff_below?.mp target
    exact .inr (.inr (.emptySelection (.through step.field?_eq isLeaf hbelow (.here _)) hleafless
      policy))

/-! ### Where no calls are left -/

section Exhausted

variable {state : State}

theorem bindField_result_of_exhausted (hexhausted : state.cursor.pending = []) (field : Field) :
    (compiler.bindField field state).result = .ok ([], state) := by
  rw [bindField_of_exhausted hexhausted]
  rfl

/-- A fault behind segments that lead to it is the fault of the whole, unless it is the empty end
of the path, which is seen earlier. -/
theorem fails_of_leads (hexhausted : state.cursor.pending = [])
    (hbuilt : compiler.registry.Built) {path : String} {before rest : List String}
    {root type : ObjectType} {error : Error} (leads : compiler.registry.Leads before root type)
    (hroot : root.WellNamed) (hrest : rest ≠ [""])
    (hfails : Fails compiler path rest type state error) :
    Fails compiler path (before ++ rest) root state error := by
  induction leads with
  | here type => exact hfails
  | @through segment others root child last field field?_eq isLeaf below?_eq leads ih =>
    obtain ⟨name, -, hobject⟩ := Option.bind_eq_some_iff.mp below?_eq
    have hchild := hbuilt.wellNamed hobject
    have hmore : others ++ rest ≠ [""] := by
      intro hsingle
      rcases List.append_eq_singleton_iff.mp hsingle with ⟨rfl, hend⟩ | ⟨rfl, -⟩
      · exact hrest hend
      · cases leads with
        | through field?_eq => exact hchild.segment_ne field?_eq rfl
    exact .deeper ⟨hroot.segment_ne field?_eq, hmore, field?_eq⟩ isLeaf
      (bindField_result_of_exhausted hexhausted field) (target_eq_ok_iff_below?.mpr below?_eq)
      (ih hchild hfails)

theorem fails_of_blames (hexhausted : state.cursor.pending = [])
    (hbuilt : compiler.registry.Built) {path : String} {segments : List String}
    {root : ObjectType} {error : Error} (hroot : root.WellNamed) (hsegments : segments ≠ [])
    (h : Blames compiler path segments root error) :
    Fails compiler path segments root state error := by
  cases h with
  | @emptySegment before rest segment type split leads empty =>
    subst split
    by_cases hend : segment :: rest = [""]
    · -- The path ends with the empty segment: it is reported at the segment before.
      rw [hend]
      rcases List.eq_nil_or_concat before with rfl | ⟨front, last, rfl⟩
      · exact .emptySegment (.inl rfl)
      · rw [List.concat_eq_append] at leads ⊢
        obtain ⟨between, hfront, -⟩ := leads.of_append
        rw [List.append_assoc]
        exact fails_of_leads hexhausted hbuilt hfront hroot (by simp) (.emptySegment (.inr rfl))
    · exact fails_of_leads hexhausted hbuilt leads hroot hend (.emptySegment empty)
  | undefinedField split leads full unnamed =>
    subst split
    refine fails_of_leads hexhausted hbuilt leads hroot ?_
      (.undefinedField full (Schema.ObjectType.field?_eq_none_iff.mpr unnamed))
    intro hend
    exact full (.inl (List.cons.inj hend).1)
  | pastLeaf split leads field?_eq isLeaf more full =>
    subst split
    have hne := (leads.wellNamed hroot hbuilt).segment_ne field?_eq
    refine fails_of_leads hexhausted hbuilt leads hroot ?_ (.pastLeaf ⟨hne, full, field?_eq⟩ isLeaf
      (bindField_result_of_exhausted hexhausted _) more)
    intro hend
    exact more (List.cons.inj hend).2
  | @emptySelection type leads leafless policy =>
    obtain ⟨front, last, rfl⟩ := (List.eq_nil_or_concat segments).resolve_left hsegments
    rw [List.concat_eq_append] at leads ⊢
    obtain ⟨between, hfront, hlast⟩ := leads.of_append
    cases hlast with
    | through field?_eq isLeaf below?_eq leads =>
      cases leads with
      | here =>
        have hne := (hfront.wellNamed hroot hbuilt).segment_ne field?_eq
        have hstop := @Follows.stop compiler type state
        rw [leavesOf_eq_nil_iff.mpr leafless] at hstop
        refine fails_of_leads hexhausted hbuilt hfront hroot (by simpa using hne) (.nothingBelow
          ⟨hne, by simp, field?_eq⟩ isLeaf (bindField_result_of_exhausted hexhausted _)
          (target_eq_ok_iff_below?.mpr below?_eq) hstop policy)

end Exhausted

/-- Whatever calls there are to consume, a fault of a path is right about the segment and the type
it names. Where none are left, a path has every fault that would be right and no other one; if the
root type is registered, no type is missing either. -/
theorem resolve_blames {root : ObjectType} {path : String} {state : State}
    (hbuilt : compiler.registry.Built) (hroot : root.WellNamed) :
    (∀ error, (compiler.resolve root path state).result = .error error →
      (error.OfBinding ∧ state.cursor.pending ≠ []) ∨ (∃ name, error = .undefinedType name) ∨
        Blames compiler path (Path.segments path) root error) ∧
    (state.cursor.pending = [] →
      (∀ error, error.BlamesNoType →
        ((compiler.resolve root path state).result = .error error ↔
          Blames compiler path (Path.segments path) root error)) ∧
      ∀ owner, compiler.registry.object? owner = some root → ∀ error,
        ((compiler.resolve root path state).result = .error error ↔
          Blames compiler path (Path.segments path) root error)) := by
  have hright : ∀ error, (compiler.resolve root path state).result = .error error →
      (error.OfBinding ∧ state.cursor.pending ≠ []) ∨ (∃ name, error = .undefinedType name) ∨
        Blames compiler path (Path.segments path) root error :=
    fun error herror => (fails_of_follow herror).blames
  refine ⟨hright, fun hexhausted => ?_⟩
  have hiff : ∀ error, error.BlamesNoType →
      ((compiler.resolve root path state).result = .error error ↔
        Blames compiler path (Path.segments path) root error) := by
    intro error hnoType
    constructor
    · intro herror
      rcases hright error herror with ⟨-, hleft⟩ | ⟨name, hname⟩ | hblames
      · exact absurd hexhausted hleft
      · exact absurd hname (hnoType name)
      · exact hblames
    · intro hblames
      exact follow_of_fails
        (fails_of_blames hexhausted hbuilt hroot (Path.segments_ne_nil path) hblames)
  refine ⟨hiff, fun owner howner error => ⟨fun herror => ?_, fun hblames => ?_⟩⟩
  · obtain ⟨draft, hmade, hbuild⟩ := hbuilt
    have hclosed : compiler.registry.Closed := (Registry.Draft.build_eq_ok_iff.mp hbuild).2
    exact (hiff error (blamesNoType_follow hclosed path _ howner state error herror)).mp herror
  · exact (hiff error hblames.blamesNoType).mpr hblames

/-- Among the paths from a route are one to a field that trips do not have, one that goes on behind
an identifier, one that breaks off, and one to the alerts, which have no leaf fields. -/
theorem resolve_blames_of_route :
    Blames Transit.compiler "trips.operator.name" ["trips", "operator", "name"] Transit.route
      (.undefinedField "trips.operator.name" "operator" "Trip") ∧
    (Transit.compiler.resolve Transit.route "trips.gtfsId.value.text" (.start [])).result =
      .error (.pastLeaf "trips.gtfsId.value.text" "gtfsId" "Trip" "value.text") ∧
    (Transit.compiler.resolve Transit.route "trips.operator." (.start [])).result =
      .error (.emptySegment "trips.operator.") ∧
    (Transit.compiler.resolve Transit.route "trips.route.alerts" (.start [])).result =
      .error (.emptySelection "trips.route.alerts" "Alert") := by
  have hbuilt := Transit.built_registry
  have hroute : Transit.registry.object? "Route" = some Transit.route := rfl
  have hiff : ∀ path error, (Transit.compiler.resolve Transit.route path (.start [])).result =
      .error error ↔ Blames Transit.compiler path (Path.segments path) Transit.route error :=
    fun path => ((@resolve_blames Transit.compiler Transit.route path (.start []) hbuilt
      (hbuilt.wellNamed hroute)).2 rfl).2 "Route" hroute
  have htrips : Transit.registry.Leads ["trips"] Transit.route Transit.trip :=
    .through rfl rfl rfl (.here _)
  refine ⟨(hiff _ _).mp rfl, (hiff _ _).mpr ?_, (hiff _ _).mpr ?_, (hiff _ _).mpr ?_⟩
  · have hsplit : Path.segments "trips.gtfsId.value.text" =
        ["trips"] ++ "gtfsId" :: ["value", "text"] := rfl
    have hfield : Transit.trip.field? "gtfsId" = some ⟨"GtfsId", .scalar .id⟩ := rfl
    exact .pastLeaf hsplit htrips hfield rfl (by simp) (by simp)
  · exact .emptySegment rfl htrips (.inr rfl)
  · exact .emptySelection (.through rfl rfl rfl (.through rfl rfl rfl (.through rfl rfl rfl
      (.here Transit.alert)))) rfl rfl

end Compiler

end Query

end PathQuery
