import PathQuery.Proofs.EmptySelection
import PathQuery.Proofs.Notes
import PathQuery.Proofs.Scan
/-!
# Includes consume calls as they are scanned

The cursor of a compilation goes over the calls just as the scan does: over one path, over all of
them, and whatever becomes of empty selections on the way. The invariant is that the cursor is at a
position among all calls; each field moves it as the scan moves. What is selected below the fields
never reaches the cursor, which is why fields that are left out count like any others.
-/

namespace PathQuery.Query

open Schema (Field ObjectType Registry)
open Selection (Binding Node)

namespace Compiler

/-- The selection of a path, and the cursor behind it, as the scan has them. -/
structure Scans (compiler : Compiler) (calls : List RelationCall) (position : Nat)
    (segments : List String) (type : ObjectType) (nodes : List Node) (cursor : Cursor) : Prop where
  length_visited : (compiler.registry.visited segments type).length = segments.length
  cursor_eq : cursor =
    .before calls (scan calls position (compiler.registry.visited segments type))
  nodes_eq : nodes = compiler.settings.emptySelection.settle
    (Occurrence.nodes compiler.registry
      (occurrences calls position (compiler.registry.visited segments type)) type)

variable {compiler : Compiler}

/-- A field moves the cursor and gets its arguments as the scan has it. -/
theorem given_of_bindField {field : Field} {state bound : State} {bindings : List Binding}
    (h : (compiler.bindField field state).result = .ok (bindings, bound))
    {calls : List RelationCall} {position : Nat} (hcursor : state.cursor = .before calls position) :
    bindings = given calls position field ∧
      bound.cursor = .before calls (step calls position field) := by
  obtain ⟨-, rfl, hbound, -⟩ := bindField_eq_ok_iff.mp h
  rw [hcursor, Cursor.pass_before] at hbound
  rw [hcursor, Cursor.arguments_before]
  exact ⟨rfl, hbound⟩

theorem Follows.scans {segments : List String} {type : ObjectType} {state after : State}
    {nodes : List Node} (h : Follows compiler segments type state nodes after)
    {calls : List RelationCall} {position : Nat} (hcursor : state.cursor = .before calls position) :
    Scans compiler calls position segments type nodes after.cursor := by
  induction h generalizing position with
  | stop => exact ⟨rfl, hcursor, (EmptySelection.settle_leavesOf _ _).symm⟩
  | @leaf segment type field state bindings bound step isLeaf bind =>
    obtain ⟨rfl, hbound⟩ := given_of_bindField bind hcursor
    have hbelow := compiler.registry.below?_of_isLeaf isLeaf
    have hvisited : compiler.registry.visited [segment] type = [field] :=
      Registry.visited_of_leaf step.field?_eq hbelow
    refine ⟨?_, ?_, ?_⟩
    · rw [hvisited]
      rfl
    · rw [hvisited]
      exact hbound
    · rw [hvisited]
      simp only [occurrences, Occurrence.nodes, hbelow, EmptySelection.settle_leaf]
      rfl
  | @branch segment rest type field state bindings bound child children deeper step isLeaf bind
      target below keep ih =>
    obtain ⟨rfl, hbound⟩ := given_of_bindField bind hcursor
    have hbelow := target_eq_ok_iff_below?.mp target
    have hvisited : compiler.registry.visited (segment :: rest) type =
        field :: compiler.registry.visited rest child :=
      Registry.visited_of_child step.field?_eq hbelow
    obtain ⟨hlength, hdeeper, hchildren⟩ := ih hbound
    refine ⟨?_, ?_, ?_⟩
    · rw [hvisited, List.length_cons, List.length_cons, hlength]
    · rw [hvisited]
      exact hdeeper
    · rw [hvisited]
      rw [hchildren] at keep ⊢
      simp only [occurrences, Occurrence.nodes, hbelow]
      rw [EmptySelection.settle_branch keep]
      rfl
  | @omitted segment rest type field state bindings bound child deeper step isLeaf bind target
      below policy ih =>
    obtain ⟨rfl, hbound⟩ := given_of_bindField bind hcursor
    have hbelow := target_eq_ok_iff_below?.mp target
    have hvisited : compiler.registry.visited (segment :: rest) type =
        field :: compiler.registry.visited rest child :=
      Registry.visited_of_child step.field?_eq hbelow
    obtain ⟨hlength, hdeeper, hchildren⟩ := ih hbound
    refine ⟨?_, ?_, ?_⟩
    · rw [hvisited, List.length_cons, List.length_cons, hlength]
    · -- The variables are cut back here, the cursor is not.
      rw [hvisited]
      exact hdeeper
    · rw [hvisited]
      simp only [occurrences, Occurrence.nodes, hbelow]
      exact (EmptySelection.settle_branch_of_nil policy hchildren.symm).symm

/-! ### All paths -/

/-- The fields that the paths of the includes lead to, path by path. -/
def paths (compiler : Compiler) (root : ObjectType) (includes : List Include) : List (List Field) :=
  includes.map fun inclusion => compiler.registry.visited (Path.segments inclusion.path) root

theorem paths_cons (compiler : Compiler) (root : ObjectType) (inclusion : Include)
    (rest : List Include) :
    compiler.paths root (inclusion :: rest) =
      compiler.registry.visited (Path.segments inclusion.path) root :: compiler.paths root rest :=
  rfl

/-- The selection of some includes, and the cursor behind them, as the scan has them: the
occurrences of one scan over all paths, cut up path by path. -/
structure ScansAll (compiler : Compiler) (calls : List RelationCall) (position : Nat)
    (root : ObjectType) (includes : List Include) (nodes : List Node) (cursor : Cursor) : Prop where
  length_paths : ∀ inclusion ∈ includes,
    (compiler.registry.visited (Path.segments inclusion.path) root).length =
      (Path.segments inclusion.path).length
  cursor_eq : cursor = .before calls (scan calls position (compiler.paths root includes).flatten)
  exists_groups : ∃ groups : List (List Occurrence),
    groups.map (List.map Occurrence.field) = compiler.paths root includes ∧
      groups.flatten = occurrences calls position (compiler.paths root includes).flatten ∧
      nodes = groups.flatMap fun group => compiler.settings.emptySelection.settle
        (Occurrence.nodes compiler.registry group root)

theorem scansAll_of_resolveAll {root : ObjectType} {includes : List Include}
    {state after : State} {nodes : List Node}
    (h : (compiler.resolveAll root includes state).result = .ok (nodes, after))
    {calls : List RelationCall} {position : Nat} (hcursor : state.cursor = .before calls position) :
    ScansAll compiler calls position root includes nodes after.cursor := by
  induction includes generalizing state nodes position with
  | nil =>
    obtain ⟨rfl, rfl⟩ := resolveAll_nil_eq_ok_iff.mp h
    exact ⟨by simp, hcursor, [], rfl, rfl, rfl⟩
  | cons inclusion rest ih =>
    obtain ⟨first, between, others, hfirst, hothers, rfl⟩ := resolveAll_cons_eq_ok_iff.mp h
    obtain ⟨hlength, hbetween, hfirstNodes⟩ := hfirst.scans hcursor
    obtain ⟨hlengths, hafter, groups, hfields, hflatten, hothersNodes⟩ := ih hothers hbetween
    refine ⟨List.forall_mem_cons.mpr ⟨hlength, hlengths⟩, ?_, occurrences calls position
      (compiler.registry.visited (Path.segments inclusion.path) root) :: groups, ?_, ?_, ?_⟩
    · rw [paths_cons, List.flatten_cons, scan_append]
      exact hafter
    · rw [List.map_cons, hfields, map_field_occurrences, paths_cons]
    · rw [paths_cons, List.flatten_cons, List.flatten_cons, occurrences_append, hflatten]
    · rw [List.flatMap_cons, ← hothersNodes, ← hfirstNodes]

/-- Calls are consumed by one greedy scan over the fields that all paths lead to. The cursor ends
where the scan does, what is selected along each path is what the scan gives its fields, and the
calls that are reported as not consumed are those behind the scan. -/
theorem compile_scans_calls {spec : Spec} {operation : Operation} (hselector : spec.selector = none)
    (h : (compiler.compile spec).result = .ok operation) :
    ∃ root bindings declared after position,
      compiler.registry.object? spec.root = some root ∧
      (bindArguments compiler.settings.scalarNames id (fun argument => [.nullArgument argument])
        spec.arguments.toList ∅).result = .ok (bindings, declared) ∧
      (compiler.rootSelection spec root ⟨Cursor.ofIncludes spec.includes, declared⟩).result =
        .ok (operation.selection, after) ∧
      (∀ inclusion ∈ spec.includes,
        (compiler.registry.visited (Path.segments inclusion.path) root).length =
          (Path.segments inclusion.path).length) ∧
      position = scan (spec.includes.flatMap Include.calls) 0
        (compiler.paths root spec.includes).flatten ∧
      after.cursor.consumed = position ∧
      (∃ groups : List (List Occurrence),
        groups.map (List.map Occurrence.field) = compiler.paths root spec.includes ∧
        groups.flatten = occurrences (spec.includes.flatMap Include.calls) 0
          (compiler.paths root spec.includes).flatten ∧
        operation.selection = Node.leavesOf root ++ groups.flatMap fun group =>
          compiler.settings.emptySelection.settle
            (Occurrence.nodes compiler.registry group root)) ∧
      (compiler.compile spec).notes.filter Event.isReport =
        match (spec.includes.flatMap Include.calls).drop position with
        | [] => []
        | call :: rest => [.unconsumed ((call :: rest).map RelationCall.name) spec.name] := by
  obtain ⟨hname, hadmissible, root, declared, ⟨nodes, after⟩, hroot, hdeclared, hselected, rfl⟩ :=
    compile_eq_ok_iff.mp h
  have hreport := reports_of_compile hselector hname hroot hadmissible hdeclared hselected
  have hselection := (rootSelection_eq_ok_iff.mp hselected).1
  obtain ⟨included, hincluded, rfl⟩ := (selection_eq_ok_iff_of_includes hselector).mp hselection
  obtain ⟨hlengths, hcursor, groups, hfields, hflatten, hnodes⟩ :=
    scansAll_of_resolveAll hincluded (Cursor.before_zero spec.includes).symm
  refine ⟨root, _, declared, after, _, hroot,
    bindArguments_eq_ok_iff.mpr ⟨hadmissible, rfl, hdeclared⟩, hselected, hlengths, rfl, ?_,
    ⟨groups, hfields, hflatten, ?_⟩, ?_⟩
  · rw [hcursor]
    rfl
  · rw [hnodes]
    rfl
  · rw [hreport, report, hcursor]
    rfl

/-- Both calls are consumed, though nothing is selected of the alerts. -/
theorem compile_scans_calls_of_route :
    ∃ (root : ObjectType) (after : State) (position : Nat),
      Transit.registry.object? "Route" = some root ∧ after.cursor.consumed = position ∧
      position = 2 ∧
      (∃ groups : List (List Occurrence),
        groups.map (List.map Occurrence.field) =
          Compiler.paths ⟨Transit.registry, { emptySelection := .omit }⟩ root
            Transit.spec.includes ∧
        Transit.operation.selection = Node.leavesOf root ++ groups.flatMap fun group =>
          EmptySelection.omit.settle (Occurrence.nodes Transit.registry group root)) ∧
      (Compiler.compile ⟨Transit.registry, { emptySelection := .omit }⟩
        Transit.spec).notes.filter Event.isReport = [] := by
  have hcompile : (Compiler.compile ⟨Transit.registry, { emptySelection := .omit }⟩
      Transit.spec).result = .ok Transit.operation := rfl
  obtain ⟨root, bindings, declared, after, position, hroot, -, -, -, hposition, hconsumed,
    ⟨groups, hfields, -, hselection⟩, hreport⟩ := compile_scans_calls rfl hcompile
  obtain rfl : Transit.route = root := Option.some.inj hroot
  obtain rfl : position = 2 := hposition
  exact ⟨Transit.route, after, 2, rfl, hconsumed, rfl, ⟨groups, hfields, hselection⟩, hreport⟩

end Compiler

end PathQuery.Query
