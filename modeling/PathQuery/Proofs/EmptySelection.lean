import PathQuery.Proofs.Pruning
/-!
# The three treatments of empty selections

A field on which nothing is selected is written with an empty selection set, or left out, or the
query is refused. The three treatments are compared on one and the same query, along the run that
writes empty selection sets. If it writes none, the other two runs go the same way. If it writes
one, the refusing run stops where that happens. The run that leaves fields out keeps going beside it
with fewer variables: its table is a sublist of the other's, so a name that is free in the one is
free in the other, and its selection is the other one pruned.
-/

namespace PathQuery.Query

open Schema (Field ObjectType)
open Selection (Binding Node)

/-- The same compiler with another treatment of empty selections. -/
def Compiler.under (compiler : Compiler) (policy : EmptySelection) : Compiler :=
  ⟨compiler.registry, ⟨policy, compiler.settings.scalarNames⟩⟩

@[simp] theorem Compiler.emptySelection_under (compiler : Compiler) (policy : EmptySelection) :
    (compiler.under policy).settings.emptySelection = policy := rfl

/-- The variables with one of the given names. -/
def Variables.restrict (vs : Variables) (names : List String) : Variables where
  toList := vs.toList.filter fun v => v.name ∈ names
  nodup_names := vs.nodup_names.sublist (List.filter_sublist.map _)

namespace Operation

/-- What is selected below the root field. -/
def selection (operation : Operation) : List Node := operation.root.children

/-- The query with its selection pruned, and the variables that are still bound. -/
def prune (operation : Operation) : Operation :=
  let root := match operation.root with
    | .leaf head => .leaf head
    | .branch head children => .branch head (Node.prune children)
  ⟨operation.declared.restrict root.boundNames, root⟩

end Operation

/-- A sublist of a table without repeated names is found again by its names. -/
theorem sublist_eq_filter {kept all : List Variable} (h : kept.Sublist all)
    (hnodup : (all.map Variable.name).Nodup) :
    kept = all.filter fun v => v.name ∈ kept.map Variable.name := by
  induction h with
  | slnil => rfl
  | @cons kept all v hsub ih =>
    rw [List.map_cons, List.nodup_cons] at hnodup
    have hv : v.name ∉ kept.map Variable.name := fun hmem =>
      hnodup.1 ((hsub.map Variable.name).subset hmem)
    rw [List.filter_cons_of_neg (by simpa using hv)]
    exact ih hnodup.2
  | @cons_cons kept all v hsub ih =>
    rw [List.map_cons, List.nodup_cons] at hnodup
    rw [List.filter_cons_of_pos (by simp)]
    congr 1
    refine (ih hnodup.2).trans (List.filter_congr ?_)
    intro other hother
    have hne : other.name ≠ v.name := fun e => hnodup.1 (e ▸ List.mem_map_of_mem hother)
    simp [hne]

/-- At the same call, and with no variable that the other state does not have. -/
structure State.Beside (kept all : State) : Prop where
  cursor : kept.cursor = all.cursor
  declared : kept.declared.toList.Sublist all.declared.toList

namespace Compiler

variable {compiler : Compiler}

/-! ### Includes -/

/-- Where nothing is left out and no selection set is written empty, every treatment goes the same
way. -/
theorem Follows.under {segments : List String} {type : ObjectType} {state after : State}
    {nodes : List Node} (h : Follows compiler segments type state nodes after)
    (homit : compiler.settings.emptySelection ≠ .omit) (hfilled : Node.allFilled nodes = true)
    (policy : EmptySelection) :
    Follows (compiler.under policy) segments type state nodes after := by
  induction h with
  | stop => exact .stop
  | leaf step isLeaf bind => exact .leaf step isLeaf bind
  | branch step isLeaf bind target below keep ih =>
    rw [Node.allFilled_singleton, Node.isFilled_branch_iff] at hfilled
    exact .branch step isLeaf bind target (ih hfilled.2) (.inl hfilled.1)
  | omitted step isLeaf bind target below omits => contradiction

/-- Unless empty selection sets are written there are none. -/
theorem Follows.allFilled {segments : List String} {type : ObjectType} {state after : State}
    {nodes : List Node} (h : Follows compiler segments type state nodes after)
    (hpolicy : compiler.settings.emptySelection ≠ .render) : Node.allFilled nodes = true := by
  induction h with
  | stop => exact Node.allFilled_leavesOf _
  | leaf step isLeaf bind => rfl
  | branch step isLeaf bind target below keep ih =>
    rw [Node.allFilled_singleton, Node.isFilled_branch_iff]
    exact ⟨keep.resolve_right hpolicy, ih⟩
  | omitted step isLeaf bind target below omits => rfl

/-- Where a selection set would be written empty, the query is refused. -/
theorem follow_reject (path : String) {segments : List String} {type : ObjectType}
    {state after : State} {nodes : List Node}
    (h : Follows (compiler.under .render) segments type state nodes after)
    (hempty : Node.allFilled nodes = false) :
    ∃ owner, ((compiler.under .reject).follow path segments type state).result =
      .error (.emptySelection path owner) := by
  induction h with
  | stop => simp at hempty
  | leaf step isLeaf bind => contradiction
  | @branch segment rest type field state bindings bound child children deeper step isLeaf bind
      target below keep ih =>
    have bind : ((compiler.under .reject).bindField field state).result =
        .ok (bindings, bound) := bind
    have target : (compiler.under .reject).target field.type.element = .ok child := target
    rw [follow_cons step bind, if_neg (by simp [isLeaf]), target]
    simp only [Except.bind]
    by_cases hchildren : Node.allFilled children = true
    · -- Everything below is there, so it is this very field on which nothing is selected.
      have hnil : children = [] := by
        cases children with
        | nil => rfl
        | cons first rest =>
          rw [Node.allFilled_singleton, Node.isFilled, hchildren] at hempty
          contradiction
      subst hnil
      have below : Follows (compiler.under .reject) rest child bound [] deeper :=
        below.under (by simp) rfl .reject
      rw [follow_of_follows below]
      exact ⟨child.name, rfl⟩
    · obtain ⟨owner, herror⟩ := ih (by simpa using hchildren)
      exact ⟨owner, by rw [herror]⟩
  | omitted step isLeaf bind target below omits => contradiction

theorem bindField_beside {field : Field} {state other bound : State} {bindings : List Binding}
    (hbeside : other.Beside state)
    (h : (compiler.bindField field state).result = .ok (bindings, bound)) :
    ∃ otherBound, (compiler.bindField field other).result = .ok (bindings, otherBound) ∧
      otherBound.Beside bound := by
  obtain ⟨cursor, otherDeclared⟩ := other
  obtain ⟨rfl, hsublist⟩ := hbeside
  obtain ⟨hadmissible, hbindings, hcursor, hdeclared⟩ := bindField_eq_ok_iff.mp h
  have hbound : (otherDeclared.toList ++
      state.cursor.declarations compiler.settings.scalarNames field).Sublist
        bound.declared.toList := by
    rw [hdeclared]
    exact hsublist.append (List.Sublist.refl _)
  -- A part of a table without repeated names has none either.
  have hnodup := bound.declared.nodup_names.sublist (hbound.map Variable.name)
  refine ⟨⟨state.cursor.pass field, ⟨_, hnodup⟩⟩, ?_, hcursor.symm, hbound⟩
  exact bindField_eq_ok_iff.mpr ⟨hadmissible, hbindings, rfl, rfl⟩

/-- Leaving fields out comes to pruning what is selected if they are written. -/
theorem Follows.prune {segments : List String} {type : ObjectType} {state after : State}
    {nodes : List Node} (h : Follows (compiler.under .render) segments type state nodes after)
    {other : State} (hbeside : other.Beside state) :
    ∃ last, Follows (compiler.under .omit) segments type other (Node.prune nodes) last ∧
      last.Beside after := by
  induction h generalizing other with
  | stop =>
    rw [Node.prune_leavesOf]
    exact ⟨other, .stop, hbeside⟩
  | leaf step isLeaf bind =>
    obtain ⟨bound, hbound, hbesideBound⟩ := bindField_beside hbeside bind
    exact ⟨bound, .leaf step isLeaf hbound, hbesideBound⟩
  | @branch segment rest type field state bindings bound child children deeper step isLeaf bind
      target below keep ih =>
    obtain ⟨otherBound, hbound, hbesideBound⟩ := bindField_beside hbeside bind
    obtain ⟨last, hlast, hbesideLast⟩ := ih hbesideBound
    have hbound : ((compiler.under .omit).bindField field other).result =
        .ok (bindings, otherBound) := hbound
    rw [Node.prune_singleton]
    by_cases hprune : Node.prune children = []
    · rw [Node.pruned?_branch_of_nil hprune]
      rw [hprune] at hlast
      refine ⟨_, .omitted step isLeaf hbound target hlast rfl, hbesideLast.cursor, ?_⟩
      -- The table is as it was before the field, and that is a part of the one after it.
      have hrestored := ((declares_of_bindField hbound).trans hlast.declares).take_size
      obtain ⟨added, hadded, -⟩ := ((declares_of_bindField bind).trans below.declares).exists_added
      rw [hrestored, hadded]
      exact hbeside.declared.trans (List.sublist_append_left _ _)
    · rw [Node.pruned?_branch_of_ne hprune]
      exact ⟨last, .branch step isLeaf hbound target hlast (.inl hprune), hbesideLast⟩
  | omitted step isLeaf bind target below omits => contradiction

theorem resolveAll_under {root : ObjectType} {includes : List Include} {state after : State}
    {nodes : List Node}
    (h : (compiler.resolveAll root includes state).result = .ok (nodes, after))
    (homit : compiler.settings.emptySelection ≠ .omit) (hfilled : Node.allFilled nodes = true)
    (policy : EmptySelection) :
    ((compiler.under policy).resolveAll root includes state).result = .ok (nodes, after) := by
  induction includes generalizing state nodes with
  | nil => exact h
  | cons inclusion rest ih =>
    obtain ⟨first, between, others, hfirst, hothers, rfl⟩ := resolveAll_cons_eq_ok_iff.mp h
    obtain ⟨hfirstFilled, hothersFilled⟩ := Node.allFilled_append_iff.mp hfilled
    exact resolveAll_cons_eq_ok_iff.mpr ⟨first, between, others,
      hfirst.under homit hfirstFilled policy, ih hothers hothersFilled, rfl⟩

theorem resolveAll_allFilled {root : ObjectType} {includes : List Include} {state after : State}
    {nodes : List Node}
    (h : (compiler.resolveAll root includes state).result = .ok (nodes, after))
    (hpolicy : compiler.settings.emptySelection ≠ .render) : Node.allFilled nodes = true := by
  induction includes generalizing state nodes with
  | nil =>
    obtain ⟨rfl, -⟩ := resolveAll_nil_eq_ok_iff.mp h
    rfl
  | cons inclusion rest ih =>
    obtain ⟨first, between, others, hfirst, hothers, rfl⟩ := resolveAll_cons_eq_ok_iff.mp h
    exact Node.allFilled_append_iff.mpr ⟨hfirst.allFilled hpolicy, ih hothers⟩

theorem resolveAll_reject {root : ObjectType} {includes : List Include} {state after : State}
    {nodes : List Node}
    (h : ((compiler.under .render).resolveAll root includes state).result = .ok (nodes, after))
    (hempty : Node.allFilled nodes = false) :
    ∃ path owner, ((compiler.under .reject).resolveAll root includes state).result =
      .error (.emptySelection path owner) := by
  induction includes generalizing state nodes with
  | nil =>
    obtain ⟨rfl, -⟩ := resolveAll_nil_eq_ok_iff.mp h
    contradiction
  | cons inclusion rest ih =>
    obtain ⟨first, between, others, hfirst, hothers, rfl⟩ := resolveAll_cons_eq_ok_iff.mp h
    by_cases hfirstFilled : Node.allFilled first = true
    · rw [Node.allFilled_append, hfirstFilled, Bool.true_and] at hempty
      obtain ⟨path, owner, herror⟩ := ih hothers hempty
      have hresolve : ((compiler.under .reject).resolve root inclusion.path state).result =
          .ok (first, between) := follow_of_follows (hfirst.under (by simp) hfirstFilled .reject)
      refine ⟨path, owner, ?_⟩
      rw [resolveAll_cons, hresolve]
      simp only [Except.bind, herror, Except.map]
    · obtain ⟨owner, herror⟩ := follow_reject inclusion.path hfirst
        (Bool.not_eq_true _ ▸ hfirstFilled)
      refine ⟨inclusion.path, owner, ?_⟩
      rw [resolveAll_cons, resolve, herror]
      rfl

theorem resolveAll_prune {root : ObjectType} {includes : List Include} {state after other : State}
    {nodes : List Node}
    (h : ((compiler.under .render).resolveAll root includes state).result = .ok (nodes, after))
    (hbeside : other.Beside state) :
    ∃ last, ((compiler.under .omit).resolveAll root includes other).result =
        .ok (Node.prune nodes, last) ∧ last.Beside after := by
  induction includes generalizing state other nodes with
  | nil =>
    obtain ⟨rfl, rfl⟩ := resolveAll_nil_eq_ok_iff.mp h
    exact ⟨other, rfl, hbeside⟩
  | cons inclusion rest ih =>
    obtain ⟨first, between, others, hfirst, hothers, rfl⟩ := resolveAll_cons_eq_ok_iff.mp h
    obtain ⟨otherBetween, hkept, hbesideBetween⟩ := hfirst.prune hbeside
    obtain ⟨last, hlast, hbesideLast⟩ := ih hothers hbesideBetween
    refine ⟨last, ?_, hbesideLast⟩
    rw [Node.prune_append]
    exact resolveAll_cons_eq_ok_iff.mpr ⟨_, otherBetween, _, hkept, hlast, rfl⟩

/-! ### Chains -/

theorem Descends.under {steps : List String} {type : ObjectType} {node? : Option Node}
    (h : Descends compiler steps type node?) (homit : compiler.settings.emptySelection ≠ .omit)
    (hfilled : Node.allFilled node?.toList = true) (policy : EmptySelection) :
    Descends (compiler.under policy) steps type node? := by
  induction h with
  | stop => exact .stop
  | leaf field?_eq isLeaf => exact .leaf field?_eq isLeaf
  | last field?_eq isLeaf target keep =>
    rw [Option.toList_some, Node.allFilled_singleton, Node.isFilled_branch_iff] at hfilled
    exact .last field?_eq isLeaf target (.inl hfilled.1)
  | omitted field?_eq isLeaf target none_below omits => contradiction
  | @outer step rest type field child inner? field?_eq isLeaf target rest_ne below ih =>
    refine .outer field?_eq isLeaf target rest_ne (ih ?_)
    cases inner? with
    | none => rfl
    | some inner =>
      rw [Option.map_some, Option.toList_some, Node.allFilled_singleton,
        Node.isFilled_branch_iff] at hfilled
      exact hfilled.2

theorem Descends.allFilled {steps : List String} {type : ObjectType} {node? : Option Node}
    (h : Descends compiler steps type node?)
    (hpolicy : compiler.settings.emptySelection ≠ .render) :
    Node.allFilled node?.toList = true := by
  induction h with
  | stop => rfl
  | leaf field?_eq isLeaf => rfl
  | last field?_eq isLeaf target keep =>
    rw [Option.toList_some, Node.allFilled_singleton, Node.isFilled_branch_iff]
    exact ⟨keep.resolve_right hpolicy, Node.allFilled_leavesOf _⟩
  | omitted field?_eq isLeaf target none_below omits => rfl
  | @outer step rest type field child inner? field?_eq isLeaf target rest_ne below ih =>
    cases inner? with
    | none => rfl
    | some inner =>
      rw [Option.map_some, Option.toList_some, Node.allFilled_singleton,
        Node.isFilled_branch_iff]
      exact ⟨by simp, ih⟩

theorem descend_reject (path : String) {steps : List String} {type : ObjectType}
    {node? : Option Node} (h : Descends (compiler.under .render) steps type node?)
    (hempty : Node.allFilled node?.toList = false) :
    ∃ owner, ((compiler.under .reject).descend path steps type).result =
      .error (.emptySelection path owner) := by
  induction h with
  | stop => contradiction
  | leaf field?_eq isLeaf => contradiction
  | @last step type field child field?_eq isLeaf target keep =>
    have target : (compiler.under .reject).target field.type.element = .ok child := target
    have hnone : Node.leavesOf child = [] := by
      by_cases hnone : Node.leavesOf child = []
      · exact hnone
      · rw [Option.toList_some, Node.allFilled_singleton,
          Node.isFilled_branch_iff.mpr ⟨hnone, Node.allFilled_leavesOf child⟩] at hempty
        contradiction
    rw [descend_cons field?_eq, if_neg (by simp [isLeaf]), target]
    simp only [Except.bind, List.isEmpty_nil, if_true, wrap, hnone, emptySelection_under]
    exact ⟨child.name, rfl⟩
  | omitted field?_eq isLeaf target none_below omits => contradiction
  | @outer step rest type field child inner? field?_eq isLeaf target rest_ne below ih =>
    have target : (compiler.under .reject).target field.type.element = .ok child := target
    cases inner? with
    | none => contradiction
    | some inner =>
      rw [Option.map_some, Option.toList_some, Node.allFilled_singleton, Node.isFilled] at hempty
      obtain ⟨owner, herror⟩ := ih hempty
      rw [descend_cons field?_eq, if_neg (by simp [isLeaf]), target]
      simp only [Except.bind, List.isEmpty_iff, if_neg rest_ne, herror, Except.map]
      exact ⟨owner, rfl⟩

theorem Descends.prune {steps : List String} {type : ObjectType} {node? : Option Node}
    (h : Descends (compiler.under .render) steps type node?) :
    Descends (compiler.under .omit) steps type (node?.bind Node.pruned?) := by
  induction h with
  | stop => exact .stop
  | leaf field?_eq isLeaf => exact .leaf field?_eq isLeaf
  | @last step type field child field?_eq isLeaf target keep =>
    rw [Option.bind_some]
    by_cases hnone : Node.leavesOf child = []
    · rw [Node.pruned?_branch_of_nil (by rw [Node.prune_leavesOf, hnone])]
      exact .omitted field?_eq isLeaf target hnone rfl
    · rw [Node.pruned?_branch_of_ne (by rwa [Node.prune_leavesOf]), Node.prune_leavesOf]
      exact .last field?_eq isLeaf target (.inl hnone)
  | omitted field?_eq isLeaf target none_below omits => contradiction
  | @outer step rest type field child inner? field?_eq isLeaf target rest_ne below ih =>
    have target : (compiler.under .omit).target field.type.element = .ok child := target
    have houter := Descends.outer field?_eq isLeaf target rest_ne ih
    cases inner? with
    | none => exact houter
    | some inner =>
      rw [Option.map_some, Option.bind_some]
      rw [Option.bind_some] at houter
      cases hinner : inner.pruned? with
      | none =>
        rw [hinner] at houter
        rw [Node.pruned?_branch_of_nil (by rw [Node.prune_singleton, hinner]; rfl)]
        exact houter
      | some kept =>
        have hprune : Node.prune [inner] = [kept] := by rw [Node.prune_singleton, hinner]; rfl
        rw [hinner] at houter
        rw [Node.pruned?_branch_of_ne (by rw [hprune]; simp), hprune]
        exact houter

theorem toList_map_relabel_allFilled (label : String) (plain? : Option Node) :
    Node.allFilled (plain?.map (Node.relabel label)).toList = Node.allFilled plain?.toList := by
  cases plain? with
  | none => rfl
  | some plain =>
    rw [Option.map_some, Option.toList_some, Option.toList_some, Node.allFilled_singleton,
      Node.allFilled_singleton, Node.isFilled_relabel]

theorem resolveChains_under {root : ObjectType} {chains : List Chain} {nodes : List Node}
    (h : (compiler.resolveChains root chains).result = .ok nodes)
    (homit : compiler.settings.emptySelection ≠ .omit) (hfilled : Node.allFilled nodes = true)
    (policy : EmptySelection) :
    ((compiler.under policy).resolveChains root chains).result = .ok nodes := by
  induction chains generalizing nodes with
  | nil => exact h
  | cons chain rest ih =>
    obtain ⟨node?, others, hnode, hothers, rfl⟩ := resolveChains_cons_eq_ok_iff.mp h
    obtain ⟨hlabel, hsteps, plain?, hplain, rfl⟩ := resolveChain_eq_ok_iff.mp hnode
    obtain ⟨hnodeFilled, hothersFilled⟩ := Node.allFilled_append_iff.mp hfilled
    rw [toList_map_relabel_allFilled] at hnodeFilled
    exact resolveChains_cons_eq_ok_iff.mpr ⟨_, others, resolveChain_eq_ok_iff.mpr
      ⟨hlabel, hsteps, plain?, hplain.under homit hnodeFilled policy, rfl⟩,
      ih hothers hothersFilled, rfl⟩

theorem resolveChains_allFilled {root : ObjectType} {chains : List Chain} {nodes : List Node}
    (h : (compiler.resolveChains root chains).result = .ok nodes)
    (hpolicy : compiler.settings.emptySelection ≠ .render) : Node.allFilled nodes = true := by
  induction chains generalizing nodes with
  | nil =>
    obtain rfl : [] = nodes := Except.ok.inj h
    rfl
  | cons chain rest ih =>
    obtain ⟨node?, others, hnode, hothers, rfl⟩ := resolveChains_cons_eq_ok_iff.mp h
    obtain ⟨-, -, plain?, hplain, rfl⟩ := resolveChain_eq_ok_iff.mp hnode
    rw [Node.allFilled_append_iff, toList_map_relabel_allFilled]
    exact ⟨hplain.allFilled hpolicy, ih hothers⟩

theorem resolveChains_reject {root : ObjectType} {chains : List Chain} {nodes : List Node}
    (h : ((compiler.under .render).resolveChains root chains).result = .ok nodes)
    (hempty : Node.allFilled nodes = false) :
    ∃ path owner, ((compiler.under .reject).resolveChains root chains).result =
      .error (.emptySelection path owner) := by
  induction chains generalizing nodes with
  | nil =>
    obtain rfl : [] = nodes := Except.ok.inj h
    contradiction
  | cons chain rest ih =>
    obtain ⟨node?, others, hnode, hothers, rfl⟩ := resolveChains_cons_eq_ok_iff.mp h
    obtain ⟨hlabel, hsteps, plain?, hplain, rfl⟩ := resolveChain_eq_ok_iff.mp hnode
    rw [resolveChains_cons]
    by_cases hplainFilled : Node.allFilled plain?.toList = true
    · rw [Node.allFilled_append, toList_map_relabel_allFilled, hplainFilled,
        Bool.true_and] at hempty
      obtain ⟨path, owner, herror⟩ := ih hothers hempty
      have hplain : Descends (compiler.under .reject) chain.steps root plain? :=
        hplain.under (by simp) hplainFilled .reject
      rw [resolveChain_eq_ok_iff.mpr ⟨hlabel, hsteps, plain?, hplain, rfl⟩, herror]
      exact ⟨path, owner, rfl⟩
    · obtain ⟨owner, herror⟩ := descend_reject chain.path hplain
        (Bool.not_eq_true _ ▸ hplainFilled)
      rw [resolveChain_of_valid hlabel hsteps, herror]
      exact ⟨chain.path, owner, rfl⟩

theorem resolveChains_prune {root : ObjectType} {chains : List Chain} {nodes : List Node}
    (h : ((compiler.under .render).resolveChains root chains).result = .ok nodes) :
    ((compiler.under .omit).resolveChains root chains).result = .ok (Node.prune nodes) := by
  induction chains generalizing nodes with
  | nil =>
    obtain rfl : [] = nodes := Except.ok.inj h
    rfl
  | cons chain rest ih =>
    obtain ⟨node?, others, hnode, hothers, rfl⟩ := resolveChains_cons_eq_ok_iff.mp h
    obtain ⟨hlabel, hsteps, plain?, hplain, rfl⟩ := resolveChain_eq_ok_iff.mp hnode
    refine resolveChains_cons_eq_ok_iff.mpr ⟨_, _, resolveChain_eq_ok_iff.mpr
      ⟨hlabel, hsteps, _, hplain.prune, rfl⟩, ih hothers, ?_⟩
    rw [Node.prune_append]
    congr 1
    cases plain? with
    | none => rfl
    | some plain =>
      rw [Option.map_some, Option.toList_some, Node.prune_singleton, Node.pruned?_relabel]
      rfl

/-! ### Queries -/

theorem selection_under {spec : Spec} {root : ObjectType} {state after : State}
    {nodes : List Node} (h : (compiler.selection spec root state).result = .ok (nodes, after))
    (homit : compiler.settings.emptySelection ≠ .omit) (hfilled : Node.allFilled nodes = true)
    (policy : EmptySelection) :
    ((compiler.under policy).selection spec root state).result = .ok (nodes, after) := by
  cases hselector : spec.selector with
  | none =>
    obtain ⟨included, hincluded, rfl⟩ := (selection_eq_ok_iff_of_includes hselector).mp h
    rw [Node.allFilled_append_iff] at hfilled
    exact (selection_eq_ok_iff_of_includes hselector).mpr
      ⟨included, resolveAll_under hincluded homit hfilled.2 policy, rfl⟩
  | some selector =>
    obtain ⟨hcheck, hchains, rfl⟩ := (selection_eq_ok_iff_of_selector hselector).mp h
    exact (selection_eq_ok_iff_of_selector hselector).mpr
      ⟨hcheck, resolveChains_under hchains homit hfilled policy, rfl⟩

theorem selection_allFilled {spec : Spec} {root : ObjectType} {state after : State}
    {nodes : List Node} (h : (compiler.selection spec root state).result = .ok (nodes, after))
    (hpolicy : compiler.settings.emptySelection ≠ .render) : Node.allFilled nodes = true := by
  cases hselector : spec.selector with
  | none =>
    obtain ⟨included, hincluded, rfl⟩ := (selection_eq_ok_iff_of_includes hselector).mp h
    exact Node.allFilled_append_iff.mpr
      ⟨Node.allFilled_leavesOf root, resolveAll_allFilled hincluded hpolicy⟩
  | some selector =>
    obtain ⟨-, hchains, -⟩ := (selection_eq_ok_iff_of_selector hselector).mp h
    exact resolveChains_allFilled hchains hpolicy

theorem selection_reject {spec : Spec} {root : ObjectType} {state after : State}
    {nodes : List Node}
    (h : ((compiler.under .render).selection spec root state).result = .ok (nodes, after))
    (hempty : Node.allFilled nodes = false) :
    ∃ path owner, ((compiler.under .reject).selection spec root state).result =
      .error (.emptySelection path owner) := by
  cases hselector : spec.selector with
  | none =>
    obtain ⟨included, hincluded, rfl⟩ := (selection_eq_ok_iff_of_includes hselector).mp h
    rw [Node.allFilled_append, Node.allFilled_leavesOf, Bool.true_and] at hempty
    obtain ⟨path, owner, herror⟩ := resolveAll_reject hincluded hempty
    rw [selection_of_includes hselector, herror]
    exact ⟨path, owner, rfl⟩
  | some selector =>
    obtain ⟨hcheck, hchains, -⟩ := (selection_eq_ok_iff_of_selector hselector).mp h
    obtain ⟨path, owner, herror⟩ := resolveChains_reject hchains hempty
    rw [selection_of_selector hselector, resolveSelector_result, hcheck]
    simp only [Except.bind, herror]
    exact ⟨path, owner, rfl⟩

theorem selection_prune {spec : Spec} {root : ObjectType} {state after : State}
    {nodes : List Node}
    (h : ((compiler.under .render).selection spec root state).result = .ok (nodes, after)) :
    ∃ last, ((compiler.under .omit).selection spec root state).result =
        .ok (Node.prune nodes, last) ∧ last.declared.toList.Sublist after.declared.toList := by
  cases hselector : spec.selector with
  | none =>
    obtain ⟨included, hincluded, rfl⟩ := (selection_eq_ok_iff_of_includes hselector).mp h
    obtain ⟨last, hlast, hbeside⟩ := resolveAll_prune hincluded ⟨rfl, List.Sublist.refl _⟩
    refine ⟨last, ?_, hbeside.declared⟩
    rw [Node.prune_append, Node.prune_leavesOf]
    exact (selection_eq_ok_iff_of_includes hselector).mpr ⟨_, hlast, rfl⟩
  | some selector =>
    obtain ⟨hcheck, hchains, rfl⟩ := (selection_eq_ok_iff_of_selector hselector).mp h
    exact ⟨after, (selection_eq_ok_iff_of_selector hselector).mpr
      ⟨hcheck, resolveChains_prune hchains, rfl⟩, List.Sublist.refl _⟩

theorem compile_under {spec : Spec} {operation : Operation}
    (h : (compiler.compile spec).result = .ok operation)
    (homit : compiler.settings.emptySelection ≠ .omit) (hne : operation.selection ≠ [])
    (hfilled : Node.allFilled operation.selection = true) (policy : EmptySelection) :
    ((compiler.under policy).compile spec).result = .ok operation := by
  obtain ⟨hname, hadmissible, root, declared, ⟨nodes, after⟩, hroot, hdeclared, hselected, rfl⟩ :=
    compile_eq_ok_iff.mp h
  have hselection := (rootSelection_eq_ok_iff.mp hselected).1
  exact compile_eq_ok_iff.mpr ⟨hname, hadmissible, root, declared, (nodes, after), hroot,
    hdeclared, rootSelection_eq_ok_iff.mpr
      ⟨selection_under hselection homit hfilled policy, .inl hne⟩, rfl⟩

theorem selection_of_compile {spec : Spec} {operation : Operation}
    (h : (compiler.compile spec).result = .ok operation)
    (hpolicy : compiler.settings.emptySelection ≠ .render) :
    operation.selection ≠ [] ∧ Node.allFilled operation.selection = true := by
  obtain ⟨-, -, root, declared, ⟨nodes, after⟩, -, -, hselected, rfl⟩ := compile_eq_ok_iff.mp h
  obtain ⟨hselection, hkept⟩ := rootSelection_eq_ok_iff.mp hselected
  exact ⟨hkept.resolve_right hpolicy, selection_allFilled hselection hpolicy⟩

theorem compile_reject {spec : Spec} {operation : Operation}
    (h : ((compiler.under .render).compile spec).result = .ok operation)
    (hempty : ¬ (operation.selection ≠ [] ∧ Node.allFilled operation.selection = true)) :
    ∃ path owner, ((compiler.under .reject).compile spec).result =
      .error (.emptySelection path owner) := by
  obtain ⟨hname, hadmissible, root, declared, ⟨nodes, after⟩, hroot, hdeclared, hselected, rfl⟩ :=
    compile_eq_ok_iff.mp h
  have hselection := (rootSelection_eq_ok_iff.mp hselected).1
  have hcompile : ((compiler.under .reject).compile spec).result =
      ((compiler.under .reject).rootSelection spec root
        ⟨Cursor.ofIncludes spec.includes, declared⟩).result.map (assemble spec) :=
    compile_result hname hroot hadmissible hdeclared
  rw [hcompile, rootSelection_result]
  cases hfilled : Node.allFilled nodes with
  | true =>
    have hnil : nodes = [] := Classical.byContradiction fun hne => hempty ⟨hne, hfilled⟩
    have hunder : ((compiler.under .reject).selection spec root
        ⟨Cursor.ofIncludes spec.includes, declared⟩).result = .ok (nodes, after) :=
      selection_under hselection (by simp) hfilled .reject
    rw [hunder]
    simp only [Except.bind]
    rw [if_pos ⟨hnil, by simp⟩]
    exact ⟨"", root.name, rfl⟩
  | false =>
    obtain ⟨path, owner, herror⟩ := selection_reject hselection hfilled
    rw [herror]
    exact ⟨path, owner, rfl⟩

theorem compile_prune {spec : Spec} {operation : Operation}
    (h : ((compiler.under .render).compile spec).result = .ok operation)
    (hne : Node.prune operation.selection ≠ []) :
    ((compiler.under .omit).compile spec).result = .ok operation.prune := by
  obtain ⟨hname, hadmissible, root, declared, ⟨nodes, after⟩, hroot, hdeclared, hselected, rfl⟩ :=
    compile_eq_ok_iff.mp h
  have hselection := (rootSelection_eq_ok_iff.mp hselected).1
  obtain ⟨last, hlast, hsublist⟩ := selection_prune hselection
  have hkept : ((compiler.under .omit).compile spec).result =
      .ok (assemble spec (Node.prune nodes, last)) :=
    compile_eq_ok_iff.mpr ⟨hname, hadmissible, root, declared, _, hroot, hdeclared,
      rootSelection_eq_ok_iff.mpr ⟨hlast, .inl hne⟩, rfl⟩
  -- The names in the smaller table are the ones that are bound in the pruned query.
  obtain ⟨-, -, -, hbound⟩ := declared_of_compile hkept
  have hrestrict : last.declared = after.declared.restrict
      (assemble spec (Node.prune nodes, last)).root.boundNames := by
    apply Variables.ext
    rw [← hbound]
    exact sublist_eq_filter hsublist after.declared.nodup_names
  rw [hkept]
  congr 1
  exact congrArg (Operation.mk · _) hrestrict

theorem compile_omit_of_prune_eq_nil {spec : Spec} {operation : Operation}
    (h : ((compiler.under .render).compile spec).result = .ok operation)
    (hnil : Node.prune operation.selection = []) :
    ∃ root, compiler.registry.object? spec.root = some root ∧
      ((compiler.under .omit).compile spec).result = .error (.emptySelection "" root.name) := by
  obtain ⟨hname, hadmissible, root, declared, ⟨nodes, after⟩, hroot, hdeclared, hselected, rfl⟩ :=
    compile_eq_ok_iff.mp h
  have hselection := (rootSelection_eq_ok_iff.mp hselected).1
  obtain ⟨last, hlast, -⟩ := selection_prune hselection
  have hcompile : ((compiler.under .omit).compile spec).result =
      ((compiler.under .omit).rootSelection spec root
        ⟨Cursor.ofIncludes spec.includes, declared⟩).result.map (assemble spec) :=
    compile_result hname hroot hadmissible hdeclared
  refine ⟨root, hroot, ?_⟩
  rw [hcompile, rootSelection_result, hlast]
  simp only [Except.bind]
  rw [if_pos ⟨hnil, by simp⟩]
  rfl

/-- The treatments of empty selections agree on everything but the empty selections. -/
theorem treatments_coherent (compiler : Compiler) (spec : Spec) :
    (∀ operation, ((compiler.under .render).compile spec).result = .ok operation →
      (operation.selection ≠ [] ∧ Node.allFilled operation.selection = true →
        ((compiler.under .reject).compile spec).result = .ok operation ∧
          ((compiler.under .omit).compile spec).result = .ok operation) ∧
      (¬ (operation.selection ≠ [] ∧ Node.allFilled operation.selection = true) →
        ∃ path owner, ((compiler.under .reject).compile spec).result =
          .error (.emptySelection path owner)) ∧
      (Node.prune operation.selection ≠ [] →
        ((compiler.under .omit).compile spec).result = .ok operation.prune) ∧
      (Node.prune operation.selection = [] →
        ∃ root, compiler.registry.object? spec.root = some root ∧
          ((compiler.under .omit).compile spec).result =
            .error (.emptySelection "" root.name))) ∧
    (∀ operation, ((compiler.under .reject).compile spec).result = .ok operation →
      ((compiler.under .render).compile spec).result = .ok operation ∧
        ((compiler.under .omit).compile spec).result = .ok operation) := by
  constructor
  · intro operation h
    refine ⟨?_, compile_reject h, compile_prune h, compile_omit_of_prune_eq_nil h⟩
    rintro ⟨hne, hfilled⟩
    exact ⟨compile_under h (by simp) hne hfilled .reject,
      compile_under h (by simp) hne hfilled .omit⟩
  · intro operation h
    obtain ⟨hne, hfilled⟩ := selection_of_compile h (by simp)
    exact ⟨compile_under h (by simp) hne hfilled .render,
      compile_under h (by simp) hne hfilled .omit⟩

/-- The alerts of a route are refused or left out; without them there is nothing to choose. -/
theorem treatments_coherent_of_route :
    (((Transit.compiler.under .render).compile Transit.spec).result = .ok Transit.rendered ∧
      Node.allFilled Transit.rendered.selection = false ∧
      Node.prune Transit.rendered.selection ≠ [] ∧
      (∃ path owner, ((Transit.compiler.under .reject).compile Transit.spec).result =
        .error (.emptySelection path owner)) ∧
      ((Transit.compiler.under .omit).compile Transit.spec).result =
        .ok Transit.rendered.prune) ∧
    (∃ operation, ((Transit.compiler.under .reject).compile
        { Transit.spec with includes := [] }).result = .ok operation ∧
      ((Transit.compiler.under .omit).compile
        { Transit.spec with includes := [] }).result = .ok operation) := by
  have hrendered : ((Transit.compiler.under .render).compile Transit.spec).result =
      .ok Transit.rendered := rfl
  have hprune : Node.prune Transit.rendered.selection ≠ [] := by
    simp [Transit.rendered, Operation.selection, Node.children, Node.prune, Node.pruned?]
  obtain ⟨-, hreject, homit, -⟩ :=
    (treatments_coherent Transit.compiler Transit.spec).1 _ hrendered
  refine ⟨⟨hrendered, rfl, hprune, hreject ?_, homit hprune⟩, _, rfl, ?_⟩
  · rintro ⟨-, hfilled⟩
    contradiction
  · exact ((treatments_coherent Transit.compiler { Transit.spec with includes := [] }).2 _ rfl).2

end Compiler

end PathQuery.Query
