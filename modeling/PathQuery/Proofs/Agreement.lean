import PathQuery.Proofs.Notes
import PathQuery.Proofs.WellNamed
/-!
# Includes and chains agree

A path may be followed as an include, or split into its steps and followed as a chain. The first way
goes down to the end of the path and wraps its nodes on the way back, and it may consume calls and
declare variables; the second does neither. Where no calls are left to consume, both come to the
same: the same fault at the same place of the path, nothing at all, or the same node, which the
chain puts under its label. A path with an empty segment leads nowhere either way, though the two do
not report it alike.
-/

namespace PathQuery

namespace Schema.ObjectType

/-- No field is addressed by the empty text. -/
theorem WellNamed.field?_empty {type : ObjectType} (h : type.WellNamed) :
    type.field? "" = none := by
  cases hfield : type.field? "" with
  | none => rfl
  | some field =>
    have hvalid := h field (mem_of_field? hfield)
    have hnamed := isNamed_of_field? hfield
    rw [Field.isNamed, Bool.or_eq_true, beq_iff_eq, beq_iff_eq] at hnamed
    rcases hnamed with hname | hremote
    · rw [hname] at hvalid
      contradiction
    · have hvalidRemote := Name.isValid_remote hvalid
      rw [← Field.remoteName, hremote] at hvalidRemote
      contradiction

end Schema.ObjectType

namespace Query

open Logged (Lacks)
open Schema (Field ObjectType)
open Selection (Binding Node)

/-- Whether an event goes with a change of the cursor or of the variables. -/
def Event.isChange : Event → Bool
  | declared _ _ | dropped _ | consumed _ _ => true
  | _ => false

namespace Compiler

variable {compiler : Compiler}

/-! ### Where no calls are left -/

theorem bindField_of_exhausted {state : State} (h : state.cursor.pending = []) (field : Field) :
    compiler.bindField field state = pure ([], state) := by
  simp only [bindField, Cursor.peek?, h, List.head?_nil]

theorem dropBeyond_size (state : State) :
    dropBeyond state.declared.size state = pure state := by
  simp only [dropBeyond, Variables.size, List.drop_length, List.map_nil]
  rw [← Variables.size, Variables.take_size]
  rfl

theorem Descends.policy_of_none {steps : List String} {type : ObjectType}
    (h : Descends compiler steps type none) (hsteps : steps ≠ []) :
    compiler.settings.emptySelection = .omit := by
  generalize hnode : (none : Option Node) = node? at h
  induction h with
  | stop => contradiction
  | leaf field?_eq isLeaf => contradiction
  | last field?_eq isLeaf target keep => contradiction
  | omitted field?_eq isLeaf target none_below policy => exact policy
  | @outer step rest type field child inner? field?_eq isLeaf target rest_ne below ih =>
    cases inner? with
    | none => exact ih rest_ne rfl
    | some inner => contradiction

/-- A path without empty segments selects what its steps select, and leaves the state alone. -/
theorem follow_of_exhausted (path : String) {segments : List String} (hne : segments ≠ [])
    (hfull : ∀ segment ∈ segments, segment ≠ "") (type : ObjectType) {state : State}
    (hexhausted : state.cursor.pending = []) :
    (compiler.follow path segments type state).result =
      (compiler.descend path segments type).result.map fun node? => (node?.toList, state) := by
  induction segments generalizing type with
  | nil => contradiction
  | cons segment rest ih =>
    rw [List.forall_mem_cons] at hfull
    have hrest : rest ≠ [""] := by
      rintro rfl
      exact hfull.2 "" List.mem_cons_self rfl
    cases hfield : type.field? segment with
    | none => simp [follow, descend, hfield, hfull.1, hrest, Except.map]
    | some field =>
      have hstep : Addresses type segment rest field := ⟨hfull.1, hrest, hfield⟩
      have hbind : (compiler.bindField field state).result = .ok ([], state) := by
        rw [bindField_of_exhausted hexhausted]
        rfl
      rw [follow_cons hstep hbind, descend_cons hfield]
      by_cases hleaf : field.isLeaf = true
      · rw [if_pos hleaf, if_pos hleaf]
        cases rest <;> rfl
      · rw [if_neg hleaf, if_neg hleaf]
        cases compiler.target field.type.element with
        | error error => rfl
        | ok child =>
          simp only [Except.bind]
          cases rest with
          | nil =>
            -- The path ends here: both wrap the leaf fields of the type below.
            have hend : (compiler.follow path [] child state).result =
                .ok (Node.leavesOf child, state) := rfl
            simp only [hend, List.isEmpty_nil, if_true, Except.map]
            rcases (compiler.wrap field [] (Node.leavesOf child) path child).result
              with error | _ | node
            · rfl
            · simp only [Variables.take_size]
              rfl
            · rfl
          | cons next others =>
            rw [ih (by simp) hfull.2 child]
            cases hbelow : (compiler.descend path (next :: others) child).result with
            | error error => rfl
            | ok inner? =>
              cases inner? with
              | none =>
                -- Only where fields are left out can nothing be selected below.
                have hpolicy := (descends_of_descend hbelow).policy_of_none (by simp)
                have hwrap : (compiler.wrap field [] [] path child).result = .ok none :=
                  wrap_eq_ok_iff.mpr (.inr ⟨rfl, hpolicy, rfl⟩)
                simp only [Except.map, Option.toList_none, hwrap, Variables.take_size]
                rfl
              | some inner =>
                have hwrap : (compiler.wrap field [] [inner] path child).result =
                    .ok (some (.branch ⟨field.remoteName, none, []⟩ [inner])) :=
                  wrap_eq_ok_iff.mpr (.inl ⟨.inl (List.cons_ne_nil inner []), rfl⟩)
                simp only [Except.map, Option.toList_some, hwrap]
                rfl

theorem Follows.eq_of_exhausted {segments : List String} {type : ObjectType} {state after : State}
    {nodes : List Node} (h : Follows compiler segments type state nodes after)
    (hexhausted : state.cursor.pending = []) : after = state := by
  have hbound : ∀ {field : Field} {state bound : State} {bindings : List Binding},
      state.cursor.pending = [] →
        (compiler.bindField field state).result = .ok (bindings, bound) → bound = state := by
    intro field state bound bindings hexhausted hbind
    rw [bindField_of_exhausted hexhausted] at hbind
    exact (Prod.mk.inj (Except.ok.inj hbind)).2.symm
  induction h with
  | stop => rfl
  | leaf step isLeaf bind => exact hbound hexhausted bind
  | branch step isLeaf bind target below keep ih =>
    obtain rfl := hbound hexhausted bind
    exact ih hexhausted
  | omitted step isLeaf bind target below policy ih =>
    obtain rfl := hbound hexhausted bind
    rw [ih hexhausted, Variables.take_size]

/-- Nothing is consumed, declared or dropped on the way, also if the path leads nowhere. -/
theorem lacks_follow_of_exhausted (path : String) (segments : List String) (type : ObjectType)
    {state : State} (hexhausted : state.cursor.pending = []) :
    Lacks Event.isChange (compiler.follow path segments type state) := by
  induction segments generalizing type with
  | nil => exact .pure _
  | cons segment rest ih =>
    unfold follow
    split
    · exact .fail _
    · split
      · exact .fail _
      · rw [bindField_of_exhausted hexhausted]
        refine .bind_of_ok (.pure _) fun bound hbound => .bind (.note rfl) fun _ => ?_
        obtain rfl := Except.ok.inj hbound
        simp only
        split
        · split
          · exact .pure _
          · exact .fail _
        · refine .bind (.ofExcept _) fun child => .bind_of_ok (ih child) fun below hbelow => ?_
          obtain ⟨children, deeper⟩ := below
          obtain rfl := (follows_of_follow hbelow).eq_of_exhausted hexhausted
          refine .bind (compiler.lacks_wrap (fun _ _ _ => rfl) _ _ _ _ _) fun node? => ?_
          cases node? with
          | some node => exact .pure _
          | none =>
            simp only [dropBeyond_size]
            exact .bind (.pure _) fun _ => .pure _

/-! ### Empty segments -/

theorem Follows.segment_ne {segments : List String} {type : ObjectType} {state after : State}
    {nodes : List Node} (h : Follows compiler segments type state nodes after) :
    ∀ segment ∈ segments, segment ≠ "" := by
  induction h with
  | stop => simp
  | leaf step isLeaf bind => simpa using step.segment_ne
  | branch step isLeaf bind target below keep ih =>
    exact List.forall_mem_cons.mpr ⟨step.segment_ne, ih⟩
  | omitted step isLeaf bind target below policy ih =>
    exact List.forall_mem_cons.mpr ⟨step.segment_ne, ih⟩

theorem Descends.step_ne {steps : List String} {type : ObjectType} {node? : Option Node}
    (h : Descends compiler steps type node?) (htype : type.WellNamed)
    (hregistry : ∀ name registered, compiler.registry.object? name = some registered →
      registered.WellNamed) :
    ∀ step ∈ steps, step ≠ "" := by
  have haddressed : ∀ {type : ObjectType} {step : String} {field : Field}, type.WellNamed →
      type.field? step = some field → step ≠ "" := by
    rintro type step field htype hfield rfl
    rw [htype.field?_empty] at hfield
    contradiction
  induction h with
  | stop => simp
  | leaf field?_eq isLeaf => simpa using haddressed htype field?_eq
  | last field?_eq isLeaf target keep => simpa using haddressed htype field?_eq
  | omitted field?_eq isLeaf target none_below policy => simpa using haddressed htype field?_eq
  | outer field?_eq isLeaf target rest_ne below ih =>
    obtain ⟨name, -, hobject⟩ := target_eq_ok_iff.mp target
    exact List.forall_mem_cons.mpr ⟨haddressed htype field?_eq, ih (hregistry name _ hobject)⟩

/-- Where no calls are left, a path comes to the same as an include and as a chain, and as an
include it leaves the variables and the cursor as they are. A path with an empty segment is refused
as both. -/
theorem resolve_agrees_with_resolveChain {root : ObjectType} {label path : String} {state : State}
    (hlabel : Name.isValid label = true) (hexhausted : state.cursor.pending = [])
    (hroot : root.Built)
    (hregistry : ∀ name type, compiler.registry.object? name = some type → type.Built) :
    Lacks Event.isChange (compiler.resolve root path state) ∧
    ((∀ segment ∈ Path.segments path, segment ≠ "") →
      (∃ error, (compiler.resolve root path state).result = .error error ∧
          (compiler.resolveChain root (.ofPath label path)).result = .error error) ∨
        ((compiler.resolve root path state).result = .ok ([], state) ∧
          (compiler.resolveChain root (.ofPath label path)).result = .ok none) ∨
        (∃ node, (compiler.resolve root path state).result = .ok ([node], state) ∧
          (compiler.resolveChain root (.ofPath label path)).result =
            .ok (some (node.relabel label)))) ∧
    ("" ∈ Path.segments path →
      (∃ error, (compiler.resolve root path state).result = .error error) ∧
        ∃ error, (compiler.resolveChain root (.ofPath label path)).result = .error error) := by
  have hsteps : Path.segments path ≠ [] := Path.segments_ne_nil path
  have hchain : (compiler.resolveChain root (.ofPath label path)).result =
      (compiler.descend path (Path.segments path) root).result.map fun node? =>
        node?.map (Node.relabel label) := by
    have hpath : (Chain.ofPath label path).path = path := Path.join_segments path
    rw [resolveChain_of_valid hlabel hsteps, hpath]
    rfl
  refine ⟨lacks_follow_of_exhausted path _ root hexhausted, ?_, ?_⟩
  · intro hfull
    rw [resolve, follow_of_exhausted path hsteps hfull root hexhausted, hchain]
    rcases (compiler.descend path (Path.segments path) root).result with error | _ | node
    · exact .inl ⟨error, rfl, rfl⟩
    · exact .inr (.inl ⟨rfl, rfl⟩)
    · exact .inr (.inr ⟨node, rfl, rfl⟩)
  · intro hempty
    constructor
    · cases hresolve : (compiler.resolve root path state).result with
      | error error => exact ⟨error, rfl⟩
      | ok resolved => exact absurd rfl ((follows_of_follow hresolve).segment_ne "" hempty)
    · rw [hchain]
      cases hdescend : (compiler.descend path (Path.segments path) root).result with
      | error error => exact ⟨error, rfl⟩
      | ok node? =>
        have hwellNamed : ∀ name registered, compiler.registry.object? name = some registered →
            registered.WellNamed := fun name registered h => (hregistry name registered h).wellNamed
        exact absurd rfl
          ((descends_of_descend hdescend).step_ne hroot.wellNamed hwellNamed "" hempty)

/-- A path to the identifiers of trips, one with an empty segment, and one to a type that is
missing. -/
theorem resolve_agrees_with_resolveChain_of_trips :
    (∃ node, (Transit.tripsOnly.resolve Transit.route "trips.gtfsId" (.start [])).result =
        .ok ([node], .start []) ∧
      (Transit.tripsOnly.resolveChain Transit.route (.ofPath "Ids" "trips.gtfsId")).result =
        .ok (some (node.relabel "Ids"))) ∧
    (∃ error, (Transit.tripsOnly.resolve Transit.route "alerts.route" (.start [])).result =
        .error error ∧
      (Transit.tripsOnly.resolveChain Transit.route (.ofPath "Ids" "alerts.route")).result =
        .error error) ∧
    ∃ error, (Transit.tripsOnly.resolveChain Transit.route (.ofPath "Ids" "trips..gtfsId")).result =
      .error error := by
  have hbuilt : ∀ type : ObjectType, Name.isValid type.name = true →
      ObjectType.Draft.addFields ⟨type.name, []⟩ type.fields = .ok ⟨type.name, type.fields⟩ →
      type.Built := by
    intro type hname hfields
    exact ⟨_, Schema.Model.made_of_addFields (.start type.name) hfields, if_pos hname⟩
  have hregistry : ∀ name type, Transit.tripsOnly.registry.object? name = some type →
      type.Built := by
    intro name type hobject
    obtain ⟨entry, hentry, rfl⟩ := Option.map_eq_some_iff.mp hobject
    obtain rfl : entry = ("Trip", Transit.trip) :=
      List.mem_singleton.mp (List.mem_of_find?_eq_some hentry)
    exact hbuilt Transit.trip (by decide) rfl
  have hagree : ∀ path, _ := fun path =>
    @resolve_agrees_with_resolveChain Transit.tripsOnly Transit.route "Ids" path (.start [])
      (by decide) rfl (hbuilt Transit.route (by decide) rfl) hregistry
  obtain ⟨-, htrips, -⟩ := hagree "trips.gtfsId"
  obtain ⟨-, halerts, -⟩ := hagree "alerts.route"
  obtain ⟨-, -, hempty⟩ := hagree "trips..gtfsId"
  refine ⟨?_, ?_, (hempty (by decide)).2⟩
  · rcases htrips (by decide) with ⟨error, herror, -⟩ | ⟨-, hnone⟩ | hnode
    · contradiction
    · have hsome : some _ = none := Except.ok.inj hnone
      contradiction
    · exact hnode
  · rcases halerts (by decide) with herror | ⟨hnone, -⟩ | ⟨node, hnode, -⟩
    · exact herror
    · contradiction
    · contradiction

end Compiler

end Query

end PathQuery
