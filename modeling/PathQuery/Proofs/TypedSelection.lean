import PathQuery.Proofs.EmptySelection
import PathQuery.Proofs.Scan
import PathQuery.Proofs.WellNamed
/-!
# Selections fit the types they select from

A compiled selection asks every type for fields that it has. A field without a selection set is a
leaf, and the fields in a selection set belong to the registered type behind the field above them.
What is selected has the shape that was asked for: the leaf fields of the root type and one node for
each include, or one node for each chain under the label of the chain. Only where empty selections
are left out may some of these nodes be missing; no node is there twice, none out of order, and no
other node is labelled.
-/

namespace PathQuery.Query

open Schema (Field ObjectType Registry)
open Selection (Binding Head Node)

/-- The nodes that a selection set on a type may hold. -/
inductive Typed (registry : Registry) : ObjectType → Node → Prop
  | leaf {type field head} (mem : field ∈ type.fields) (isLeaf : field.type.element.isLeaf = true)
      (name_eq : head.name = field.remoteName) : Typed registry type (.leaf head)
  | branch {type field head name child children} (mem : field ∈ type.fields)
      (name_eq : head.name = field.remoteName) (objectName : field.type.objectName? = some name)
      (object : registry.object? name = some child)
      (below : ∀ node ∈ children, Typed registry child node) :
      Typed registry type (.branch head children)

/-- The node of a path from a type on: one field for each segment, each above the next, and at the
end of the path a leaf, or the leaf fields of the type it has reached. -/
inductive Traces (registry : Registry) : List String → ObjectType → Node → Prop
  | leaf {segment type field arguments} (field?_eq : type.field? segment = some field)
      (isLeaf : field.isLeaf = true) :
      Traces registry [segment] type (.leaf ⟨field.remoteName, none, arguments⟩)
  | last {segment type field child arguments} (field?_eq : type.field? segment = some field)
      (below : registry.below? field = some child) :
      Traces registry [segment] type
        (.branch ⟨field.remoteName, none, arguments⟩ (Node.leavesOf child))
  | outer {segment rest type field child arguments node}
      (field?_eq : type.field? segment = some field) (below : registry.below? field = some child)
      (inner : Traces registry rest child node) :
      Traces registry (segment :: rest) type
        (.branch ⟨field.remoteName, none, arguments⟩ [node])

def Unlabelled (nodes : List Node) : Prop := ∀ head ∈ Node.allHeads nodes, head.label = none

/-- The node of a chain: that of its steps, with the label of the chain and no other. -/
structure Labelled (registry : Registry) (root : ObjectType) (chain : Chain) (node : Node) :
    Prop where
  label_eq : node.head.label = some chain.label
  below : Unlabelled node.children
  exists_plain : ∃ plain, Traces registry chain.steps root plain ∧
    node = plain.relabel chain.label

/-- At most one fitting node for each item, in the order of the items, and exactly one where empty
selections are not left out. -/
def Picks {α : Type} (policy : EmptySelection) (Fits : α → Node → Prop) (items : List α)
    (nodes : List Node) : Prop :=
  ∃ picks : List (α × Option Node), picks.map Prod.fst = items ∧
    picks.filterMap Prod.snd = nodes ∧
    ∀ pick ∈ picks, (policy ≠ .omit → pick.2.isSome = true) ∧ ∀ node ∈ pick.2, Fits pick.1 node

/-! ### Nodes of a type -/

variable {registry : Registry}

theorem typed_of_mem_leavesOf {type : ObjectType} {node : Node} (h : node ∈ Node.leavesOf type) :
    Typed registry type node := by
  obtain ⟨name, hname, rfl⟩ := List.mem_map.mp h
  obtain ⟨field, hfield, rfl⟩ := List.mem_map.mp hname
  obtain ⟨hmem, hleaf⟩ := List.mem_filter.mp hfield
  exact .leaf hmem hleaf rfl

theorem Typed.relabel {type : ObjectType} {node : Node} (h : Typed registry type node)
    (label : String) : Typed registry type (node.relabel label) := by
  cases h with
  | leaf mem isLeaf name_eq => exact .leaf mem isLeaf name_eq
  | branch mem name_eq objectName object below =>
    exact .branch mem name_eq objectName object below

theorem exists_of_below? {field : Field} {child : ObjectType}
    (h : registry.below? field = some child) :
    ∃ name, field.type.objectName? = some name ∧ registry.object? name = some child :=
  Option.bind_eq_some_iff.mp h

theorem Traces.typed {segments : List String} {type : ObjectType} {node : Node}
    (h : Traces registry segments type node) : Typed registry type node := by
  induction h with
  | leaf field?_eq isLeaf => exact .leaf (ObjectType.mem_of_field? field?_eq) isLeaf rfl
  | last field?_eq below =>
    obtain ⟨name, hname, hobject⟩ := exists_of_below? below
    exact .branch (ObjectType.mem_of_field? field?_eq) rfl hname hobject
      fun _ hnode => typed_of_mem_leavesOf hnode
  | outer field?_eq below inner ih =>
    obtain ⟨name, hname, hobject⟩ := exists_of_below? below
    exact .branch (ObjectType.mem_of_field? field?_eq) rfl hname hobject (by simpa using ih)

/-! ### Labels -/

theorem Unlabelled.append {nodes others : List Node} (h : Unlabelled nodes)
    (hothers : Unlabelled others) : Unlabelled (nodes ++ others) := by
  induction nodes with
  | nil => exact hothers
  | cons node rest ih =>
    simp only [Unlabelled, Node.allHeads, List.forall_mem_append] at h
    simp only [List.cons_append, Unlabelled, Node.allHeads, List.forall_mem_append]
    exact ⟨h.1, ih h.2⟩

theorem unlabelled_of_forall_mem {nodes : List Node} (h : ∀ node ∈ nodes, Unlabelled [node]) :
    Unlabelled nodes := by
  induction nodes with
  | nil => simp [Unlabelled, Node.allHeads]
  | cons node rest ih =>
    rw [List.forall_mem_cons] at h
    exact h.1.append (ih h.2)

theorem unlabelled_branch_iff {head : Head} {children : List Node} :
    Unlabelled [.branch head children] ↔ head.label = none ∧ Unlabelled children := by
  simp [Unlabelled, Node.allHeads, Node.heads]

theorem unlabelled_leavesOf (type : ObjectType) : Unlabelled (Node.leavesOf type) := by
  rw [Node.leavesOf]
  induction type.leafNames with
  | nil => simp [Unlabelled, Node.allHeads]
  | cons name rest ih => simpa [Unlabelled, Node.allHeads, Node.heads] using ih

theorem Traces.unlabelled {segments : List String} {type : ObjectType} {node : Node}
    (h : Traces registry segments type node) : Unlabelled [node] := by
  induction h with
  | leaf field?_eq isLeaf => simp [Unlabelled, Node.allHeads, Node.heads]
  | last field?_eq below => exact unlabelled_branch_iff.mpr ⟨rfl, unlabelled_leavesOf _⟩
  | outer field?_eq below inner ih => exact unlabelled_branch_iff.mpr ⟨rfl, ih⟩

theorem Traces.unlabelled_children {segments : List String} {type : ObjectType} {node : Node}
    (h : Traces registry segments type node) : Unlabelled node.children := by
  have hnode := h.unlabelled
  cases node with
  | leaf head => simp [Unlabelled, Node.children, Node.allHeads]
  | branch head children => exact (unlabelled_branch_iff.mp hnode).2

theorem Traces.labelled {chain : Chain} {root : ObjectType} {plain : Node}
    (h : Traces registry chain.steps root plain) :
    Labelled registry root chain (plain.relabel chain.label) := by
  have hbelow := h.unlabelled_children
  refine ⟨?_, ?_, plain, h, rfl⟩
  · cases plain <;> rfl
  · cases plain <;> exact hbelow

theorem Labelled.typed {chain : Chain} {root : ObjectType} {node : Node}
    (h : Labelled registry root chain node) : Typed registry root node := by
  obtain ⟨plain, hplain, rfl⟩ := h.exists_plain
  exact hplain.typed.relabel chain.label

/-! ### One node for each item -/

namespace Picks

variable {α : Type} {policy : EmptySelection} {Fits : α → Node → Prop} {items : List α}
  {nodes : List Node}

theorem nil : Picks policy Fits [] [] := ⟨[], rfl, rfl, by simp⟩

theorem cons {item : α} {node? : Option Node} (hsome : policy ≠ .omit → node?.isSome = true)
    (hfits : ∀ node ∈ node?, Fits item node) (h : Picks policy Fits items nodes) :
    Picks policy Fits (item :: items) (node?.toList ++ nodes) := by
  obtain ⟨picks, hitems, hnodes, hall⟩ := h
  refine ⟨(item, node?) :: picks, by rw [List.map_cons, hitems], ?_,
    List.forall_mem_cons.mpr ⟨⟨hsome, hfits⟩, hall⟩⟩
  rw [← hnodes]
  cases node? <;> rfl

theorem forall_mem {P : Node → Prop} (h : Picks policy Fits items nodes)
    (himp : ∀ item node, Fits item node → P node) : ∀ node ∈ nodes, P node := by
  obtain ⟨picks, -, rfl, hall⟩ := h
  intro node hnode
  obtain ⟨pick, hpick, hsome⟩ := List.mem_filterMap.mp hnode
  exact himp pick.1 node ((hall pick hpick).2 node hsome)

/-- What the nodes take over from their items stands in the order of the items. -/
theorem map_sublist {β : Type} {f : Node → β} {g : α → β} (h : Picks policy Fits items nodes)
    (himp : ∀ item node, Fits item node → f node = g item) :
    (nodes.map f).Sublist (items.map g) := by
  obtain ⟨picks, rfl, rfl, hall⟩ := h
  induction picks with
  | nil => exact .slnil
  | cons pick rest ih =>
    obtain ⟨⟨-, hfits⟩, hrest⟩ := List.forall_mem_cons.mp hall
    obtain ⟨item, _ | node⟩ := pick
    · exact (ih hrest).cons _
    · have heq := himp item node (hfits node rfl)
      simp only [List.filterMap_cons, List.map_cons, heq]
      exact (ih hrest).cons_cons _

end Picks

namespace Compiler

variable {compiler : Compiler}

/-- What is selected along a path is its node, or nothing where that may be left out. -/
theorem Follows.exists_traces {segments : List String} {type : ObjectType} {state after : State}
    {nodes : List Node} (h : Follows compiler segments type state nodes after)
    (hne : segments ≠ []) :
    ∃ node? : Option Node, nodes = node?.toList ∧
      (compiler.settings.emptySelection ≠ .omit → node?.isSome = true) ∧
      ∀ node ∈ node?, Traces compiler.registry segments type node := by
  induction h with
  | stop => contradiction
  | leaf step isLeaf bind =>
    exact ⟨some _, rfl, fun _ => rfl, by simpa using Traces.leaf step.field?_eq isLeaf⟩
  | @branch segment rest type field state bindings bound child children deeper step isLeaf bind
      target below keep ih =>
    refine ⟨some _, rfl, fun _ => rfl, ?_⟩
    have hbelow := target_eq_ok_iff_below?.mp target
    intro node hnode
    obtain rfl := Option.some.inj hnode
    by_cases hrest : rest = []
    · subst hrest
      cases below with
      | stop => exact .last step.field?_eq hbelow
    · obtain ⟨node?, rfl, hsome, htraces⟩ := ih hrest
      cases node? with
      | some node => exact .outer step.field?_eq hbelow (htraces node rfl)
      | none =>
        -- A selection set stays empty only where it is written so, and there nothing is left out.
        have hrender := keep.resolve_left (by simp)
        have hnode := hsome (by simp [hrender])
        contradiction
  | omitted step isLeaf bind target below policy ih =>
    exact ⟨none, rfl, fun hpolicy => absurd policy hpolicy, by simp⟩

theorem Descends.exists_traces {steps : List String} {type : ObjectType} {node? : Option Node}
    (h : Descends compiler steps type node?) (hne : steps ≠ []) :
    (compiler.settings.emptySelection ≠ .omit → node?.isSome = true) ∧
      ∀ node ∈ node?, Traces compiler.registry steps type node := by
  induction h with
  | stop => contradiction
  | leaf field?_eq isLeaf =>
    exact ⟨fun _ => rfl, by simpa using Traces.leaf field?_eq isLeaf⟩
  | last field?_eq isLeaf target keep =>
    exact ⟨fun _ => rfl, by simpa using Traces.last field?_eq (target_eq_ok_iff_below?.mp target)⟩
  | omitted field?_eq isLeaf target none_below policy =>
    exact ⟨fun hpolicy => absurd policy hpolicy, by simp⟩
  | @outer step rest type field child inner? field?_eq isLeaf target rest_ne below ih =>
    obtain ⟨hsome, htraces⟩ := ih rest_ne
    cases inner? with
    | none => exact ⟨hsome, by simp⟩
    | some inner =>
      have hbelow := target_eq_ok_iff_below?.mp target
      exact ⟨fun _ => rfl, by simpa using Traces.outer field?_eq hbelow (htraces inner rfl)⟩

theorem picks_of_resolveAll {root : ObjectType} {includes : List Include} {state after : State}
    {nodes : List Node}
    (h : (compiler.resolveAll root includes state).result = .ok (nodes, after)) :
    Picks compiler.settings.emptySelection
      (fun inclusion node =>
        Traces compiler.registry (Path.segments (Include.path inclusion)) root node)
      includes nodes := by
  induction includes generalizing state nodes with
  | nil =>
    obtain ⟨rfl, -⟩ := resolveAll_nil_eq_ok_iff.mp h
    exact .nil
  | cons inclusion rest ih =>
    obtain ⟨first, between, others, hfirst, hothers, rfl⟩ := resolveAll_cons_eq_ok_iff.mp h
    obtain ⟨node?, rfl, hsome, htraces⟩ :=
      hfirst.exists_traces (Path.segments_ne_nil inclusion.path)
    exact .cons hsome htraces (ih hothers)

theorem picks_of_resolveChains {root : ObjectType} {chains : List Chain} {nodes : List Node}
    (h : (compiler.resolveChains root chains).result = .ok nodes) :
    Picks compiler.settings.emptySelection (Labelled compiler.registry root) chains nodes := by
  induction chains generalizing nodes with
  | nil =>
    obtain rfl : [] = nodes := Except.ok.inj h
    exact .nil
  | cons chain rest ih =>
    obtain ⟨node?, others, hnode, hothers, rfl⟩ := resolveChains_cons_eq_ok_iff.mp h
    obtain ⟨-, hsteps, plain?, hplain, rfl⟩ := resolveChain_eq_ok_iff.mp hnode
    obtain ⟨hsome, htraces⟩ := hplain.exists_traces hsteps
    refine .cons (by simpa using hsome) ?_ (ih hothers)
    intro node hmem
    obtain ⟨plain, rfl, rfl⟩ := Option.map_eq_some_iff.mp hmem
    exact (htraces plain rfl).labelled

end Compiler

theorem firstRepeated?_eq_none_iff {seen texts : List String} :
    firstRepeated? seen texts = none ↔ texts.Nodup ∧ ∀ text ∈ texts, text ∉ seen := by
  induction texts generalizing seen with
  | nil => simp [firstRepeated?]
  | cons text rest ih =>
    rw [firstRepeated?, List.nodup_cons, List.forall_mem_cons]
    by_cases hseen : text ∈ seen
    · simp [hseen]
    · simp only [List.contains_eq_mem, hseen, decide_false, Bool.false_eq_true, if_false, ih,
        List.mem_cons, not_or, not_false_eq_true, true_and]
      constructor
      · rintro ⟨hnodup, hfresh⟩
        exact ⟨⟨fun hmem => (hfresh text hmem).1 rfl, hnodup⟩, fun other hother =>
          (hfresh other hother).2⟩
      · rintro ⟨⟨hnew, hnodup⟩, hfresh⟩
        exact ⟨hnodup, fun other hother => ⟨fun e => hnew (e ▸ hother), hfresh other hother⟩⟩

/-- The labels of an accepted selector are pairwise distinct. -/
theorem Selector.nodup_labels {selector : Selector} (h : selector.check = .ok ()) :
    (selector.chains.map Chain.label).Nodup := by
  cases selector with
  | single chain => simp [chains]
  | constructed chains =>
    cases chains with
    | nil => contradiction
    | cons first rest =>
      simp only [check] at h
      split at h
      · contradiction
      · rename_i hnone
        exact (firstRepeated?_eq_none_iff.mp hnone).1

namespace Compiler

variable {compiler : Compiler}

/-- A compiled selection fits the root type, and it is what the includes or the selector ask for. -/
theorem selection_typed_of_compile {spec : Spec} {operation : Operation}
    (h : (compiler.compile spec).result = .ok operation) :
    ∃ root, compiler.registry.object? spec.root = some root ∧
      (∀ node ∈ operation.selection, Typed compiler.registry root node) ∧
      (spec.selector = none → Unlabelled operation.selection ∧
        ∃ included, operation.selection = Node.leavesOf root ++ included ∧
          Picks compiler.settings.emptySelection
            (fun inclusion node =>
              Traces compiler.registry (Path.segments (Include.path inclusion)) root node)
            spec.includes included) ∧
      ∀ selector, spec.selector = some selector →
        (selector.chains.map Chain.label).Nodup ∧
          (operation.selection.map fun node => node.head.label).Nodup ∧
          Picks compiler.settings.emptySelection (Labelled compiler.registry root)
            selector.chains operation.selection := by
  obtain ⟨-, -, root, declared, ⟨nodes, after⟩, hroot, -, hselected, rfl⟩ :=
    compile_eq_ok_iff.mp h
  have hselection := (rootSelection_eq_ok_iff.mp hselected).1
  refine ⟨root, hroot, ?_⟩
  cases hselector : spec.selector with
  | none =>
    obtain ⟨included, hincluded, rfl⟩ := (selection_eq_ok_iff_of_includes hselector).mp hselection
    have hpicks := picks_of_resolveAll hincluded
    refine ⟨?_, fun _ => ⟨?_, included, rfl, hpicks⟩, by simp⟩
    · exact List.forall_mem_append.mpr ⟨fun _ hnode => typed_of_mem_leavesOf hnode,
        hpicks.forall_mem fun _ _ htraces => htraces.typed⟩
    · exact (unlabelled_leavesOf root).append
        (unlabelled_of_forall_mem (hpicks.forall_mem fun _ _ htraces => htraces.unlabelled))
  | some selector =>
    obtain ⟨hcheck, hchains, rfl⟩ := (selection_eq_ok_iff_of_selector hselector).mp hselection
    have hpicks := picks_of_resolveChains hchains
    have hlabels := Selector.nodup_labels hcheck
    refine ⟨hpicks.forall_mem fun _ _ hlabelled => hlabelled.typed, by simp, ?_⟩
    intro other hother
    obtain rfl := Option.some.inj hother
    refine ⟨hlabels, ?_, hpicks⟩
    have hsublist := hpicks.map_sublist (f := fun node => node.head.label)
      (g := fun chain => some chain.label) fun _ _ hlabelled => hlabelled.label_eq
    refine List.Nodup.sublist hsublist ?_
    rw [← Function.comp_def, ← List.map_map]
    exact List.Pairwise.map some (fun _ _ hne heq => hne (Option.some.inj heq)) hlabels

/-- The includes of a route where empty selections are left out, and two chains in their place. -/
theorem selection_typed_of_route :
    (∃ included, Transit.operation.selection = Node.leavesOf Transit.route ++ included ∧
      (∀ node ∈ Transit.operation.selection, Typed Transit.registry Transit.route node) ∧
      Picks .omit
        (fun inclusion node => Traces Transit.registry (Path.segments (Include.path inclusion))
          Transit.route node)
        Transit.spec.includes included) ∧
    ∃ operation, (Transit.compiler.compile
        { Transit.spec with selector := some Transit.selector }).result = .ok operation ∧
      (∀ node ∈ operation.selection, Typed Transit.registry Transit.route node) ∧
      Picks .reject (Labelled Transit.registry Transit.route) Transit.selector.chains
        operation.selection := by
  have hincludes : (Compiler.compile ⟨Transit.registry, { emptySelection := .omit }⟩
      Transit.spec).result = .ok Transit.operation := rfl
  obtain ⟨root, hroot, htyped, hshape, -⟩ := selection_typed_of_compile hincludes
  obtain rfl : Transit.route = root := Option.some.inj hroot
  obtain ⟨-, included, hselection, hpicks⟩ := hshape rfl
  refine ⟨⟨included, hselection, htyped, hpicks⟩, ?_⟩
  obtain ⟨operation, hchains⟩ : ∃ operation, (Transit.compiler.compile
      { Transit.spec with selector := some Transit.selector }).result = .ok operation := ⟨_, rfl⟩
  obtain ⟨root, hroot, htyped, -, hshape⟩ := selection_typed_of_compile hchains
  obtain rfl : Transit.route = root := Option.some.inj hroot
  exact ⟨operation, hchains, htyped, (hshape Transit.selector rfl).2.2⟩

end Compiler

end PathQuery.Query
