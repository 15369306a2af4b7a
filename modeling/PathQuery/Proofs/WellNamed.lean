import PathQuery.Proofs.Compilation
import PathQuery.Proofs.Naming
import PathQuery.Proofs.Registration
/-!
# Everything in a selection has a name

Whatever reaches the text of a query as a name is checked somewhere else: a field when its type is
registered, an argument when it is bound, a label when its chain is resolved, the query itself when
its compilation begins. In a compiled query all of it comes together, so the heads of its nodes are
well named.
-/

namespace PathQuery.Schema

theorem ObjectType.mem_of_field? {type : ObjectType} {segment : String} {field : Field}
    (h : type.field? segment = some field) : field ∈ type.fields := by
  rcases Option.or_eq_some_iff.mp h with h | ⟨-, h⟩
  · exact List.mem_of_find?_eq_some h
  · exact List.mem_of_find?_eq_some h

theorem ObjectType.isNamed_of_field? {type : ObjectType} {segment : String} {field : Field}
    (h : type.field? segment = some field) : field.isNamed segment = true := by
  rcases Option.or_eq_some_iff.mp h with h | ⟨-, h⟩
  · have hname := List.find?_some h
    rw [beq_iff_eq] at hname
    simp [Field.isNamed, hname]
  · have hnamed := List.find?_some h
    exact hnamed

end PathQuery.Schema

namespace PathQuery.Selection

structure Head.WellNamed (head : Head) : Prop where
  name : Name.isValid head.name = true
  label : ∀ label, head.label = some label → Name.isValid label = true
  argument : ∀ binding ∈ head.arguments,
    Name.isValid binding.argument = true ∧ Name.isValid binding.variableName = true

namespace Node

mutual

/-- The heads of a node and of those below it, as they are written. -/
def heads : Node → List Head
  | leaf head => [head]
  | branch head children => head :: allHeads children

def allHeads : List Node → List Head
  | [] => []
  | node :: rest => heads node ++ allHeads rest

end

def AllWellNamed (nodes : List Node) : Prop := ∀ head ∈ allHeads nodes, head.WellNamed

theorem AllWellNamed.nil : AllWellNamed [] := by simp [AllWellNamed, allHeads]

theorem allWellNamed_cons_iff {node : Node} {rest : List Node} :
    AllWellNamed (node :: rest) ↔ AllWellNamed [node] ∧ AllWellNamed rest := by
  simp only [AllWellNamed, allHeads, List.append_nil, List.forall_mem_append]

theorem allWellNamed_leaf_iff {head : Head} : AllWellNamed [.leaf head] ↔ head.WellNamed := by
  simp [AllWellNamed, allHeads, heads]

theorem allWellNamed_branch_iff {head : Head} {children : List Node} :
    AllWellNamed [.branch head children] ↔ head.WellNamed ∧ AllWellNamed children := by
  simp [AllWellNamed, allHeads, heads]

theorem AllWellNamed.append {nodes others : List Node} (h : AllWellNamed nodes)
    (hothers : AllWellNamed others) : AllWellNamed (nodes ++ others) := by
  induction nodes with
  | nil => exact hothers
  | cons node rest ih =>
    obtain ⟨hnode, hrest⟩ := allWellNamed_cons_iff.mp h
    exact allWellNamed_cons_iff.mpr ⟨hnode, ih hrest⟩

theorem allWellNamed_leavesOf {type : Schema.ObjectType} (h : type.WellNamed) :
    AllWellNamed (leavesOf type) := by
  have hnames : ∀ name ∈ type.leafNames, Name.isValid name = true := by
    intro name hname
    obtain ⟨field, hfield, rfl⟩ := List.mem_map.mp hname
    exact Name.isValid_remote (h field (List.mem_filter.mp hfield).1)
  rw [leavesOf]
  generalize type.leafNames = names at hnames
  induction names with
  | nil => exact .nil
  | cons name rest ih =>
    rw [List.forall_mem_cons] at hnames
    rw [List.map_cons, allWellNamed_cons_iff, allWellNamed_leaf_iff]
    exact ⟨⟨hnames.1, by simp, by simp⟩, ih hnames.2⟩

theorem AllWellNamed.relabel {node : Node} {label : String} (h : AllWellNamed [node])
    (hlabel : Name.isValid label = true) : AllWellNamed [node.relabel label] := by
  have hrelabel : ∀ head : Head, head.WellNamed →
      Head.WellNamed { head with label := some label } := by
    intro head hhead
    refine ⟨hhead.name, ?_, hhead.argument⟩
    intro other hother
    exact Option.some.inj hother ▸ hlabel
  cases node with
  | leaf head => exact allWellNamed_leaf_iff.mpr (hrelabel head (allWellNamed_leaf_iff.mp h))
  | branch head children =>
    obtain ⟨hhead, hchildren⟩ := allWellNamed_branch_iff.mp h
    exact allWellNamed_branch_iff.mpr ⟨hrelabel head hhead, hchildren⟩

end Node

end PathQuery.Selection

namespace PathQuery.Query

open Schema (Field ObjectType)
open Selection (Binding Head Node)

theorem wellNamed_of_bindingsOf {names : ScalarNames} {rename : String → String}
    {arguments : List (String × Value)} {name : String} {label : Option String}
    (hname : Name.isValid name = true)
    (hlabel : ∀ text, label = some text → Name.isValid text = true)
    (hrename : ∀ argument, Name.isValid argument = true → Name.isValid (rename argument) = true)
    (h : ∀ argument ∈ arguments, Admissible names argument) :
    Head.WellNamed ⟨name, label, bindingsOf rename arguments⟩ := by
  refine ⟨hname, hlabel, ?_⟩
  intro binding hbinding
  obtain ⟨argument, hargument, rfl⟩ := mem_bindingsOf hbinding
  have hvalid := (h argument hargument).1
  exact ⟨hvalid, hrename argument.1 hvalid⟩

namespace Compiler

variable {compiler : Compiler}

/-- The head of a field that an include resolves to. -/
theorem wellNamed_of_bindField {field : Field} {state bound : State} {bindings : List Binding}
    (hfield : Name.isValid field.name = true)
    (h : (compiler.bindField field state).result = .ok (bindings, bound)) :
    Head.WellNamed ⟨field.remoteName, none, bindings⟩ := by
  obtain ⟨hadmissible, rfl, -, -⟩ := bindField_eq_ok_iff.mp h
  exact wellNamed_of_bindingsOf (Name.isValid_remote hfield) (by simp)
    (fun _ hargument => Name.isValid_positioned hargument _) hadmissible

theorem wellNamed_of_target {field : Field} {child : ObjectType} (hbuilt : compiler.registry.Built)
    (h : compiler.target field.type.element = .ok child) : child.WellNamed := by
  obtain ⟨name, -, hobject⟩ := target_eq_ok_iff.mp h
  exact hbuilt.wellNamed hobject

theorem Follows.allWellNamed {segments : List String} {type : ObjectType} {state after : State}
    {nodes : List Node} (h : Follows compiler segments type state nodes after)
    (hbuilt : compiler.registry.Built) (htype : type.WellNamed) : Node.AllWellNamed nodes := by
  induction h with
  | stop => exact Node.allWellNamed_leavesOf htype
  | leaf step isLeaf bind =>
    have hfield := htype _ (ObjectType.mem_of_field? step.field?_eq)
    exact Node.allWellNamed_leaf_iff.mpr (wellNamed_of_bindField hfield bind)
  | branch step isLeaf bind target below keep ih =>
    have hfield := htype _ (ObjectType.mem_of_field? step.field?_eq)
    exact Node.allWellNamed_branch_iff.mpr
      ⟨wellNamed_of_bindField hfield bind, ih (wellNamed_of_target hbuilt target)⟩
  | omitted step isLeaf bind target below policy ih => exact .nil

theorem Descends.allWellNamed {steps : List String} {type : ObjectType} {node? : Option Node}
    (h : Descends compiler steps type node?) (hbuilt : compiler.registry.Built)
    (htype : type.WellNamed) : Node.AllWellNamed node?.toList := by
  have hhead : ∀ {type : ObjectType} {step : String} {field : Field}, type.WellNamed →
      type.field? step = some field → Head.WellNamed ⟨field.remoteName, none, []⟩ :=
    fun htype hfield => ⟨Name.isValid_remote (htype _ (ObjectType.mem_of_field? hfield)),
      by simp, by simp⟩
  induction h with
  | stop => exact .nil
  | leaf field?_eq isLeaf => exact Node.allWellNamed_leaf_iff.mpr (hhead htype field?_eq)
  | last field?_eq isLeaf target keep =>
    exact Node.allWellNamed_branch_iff.mpr ⟨hhead htype field?_eq,
      Node.allWellNamed_leavesOf (wellNamed_of_target hbuilt target)⟩
  | omitted field?_eq isLeaf target none_below policy => exact .nil
  | @outer step rest type field child inner? field?_eq isLeaf target rest_ne below ih =>
    have hinner := ih (wellNamed_of_target hbuilt target)
    cases inner? with
    | none => exact .nil
    | some inner => exact Node.allWellNamed_branch_iff.mpr ⟨hhead htype field?_eq, hinner⟩

theorem allWellNamed_of_resolveAll {root : ObjectType} {includes : List Include}
    {state after : State} {nodes : List Node}
    (h : (compiler.resolveAll root includes state).result = .ok (nodes, after))
    (hbuilt : compiler.registry.Built) (hroot : root.WellNamed) : Node.AllWellNamed nodes := by
  induction includes generalizing state nodes with
  | nil =>
    obtain ⟨rfl, rfl⟩ := resolveAll_nil_eq_ok_iff.mp h
    exact .nil
  | cons inclusion rest ih =>
    obtain ⟨first, between, others, hfirst, hothers, rfl⟩ := resolveAll_cons_eq_ok_iff.mp h
    exact (hfirst.allWellNamed hbuilt hroot).append (ih hothers)

theorem allWellNamed_of_resolveChains {root : ObjectType} {chains : List Chain}
    {nodes : List Node} (h : (compiler.resolveChains root chains).result = .ok nodes)
    (hbuilt : compiler.registry.Built) (hroot : root.WellNamed) : Node.AllWellNamed nodes := by
  induction chains generalizing nodes with
  | nil =>
    obtain rfl : [] = nodes := Except.ok.inj h
    exact .nil
  | cons chain rest ih =>
    obtain ⟨node?, others, hnode, hothers, rfl⟩ := resolveChains_cons_eq_ok_iff.mp h
    obtain ⟨hlabel, -, plain?, hplain, rfl⟩ := resolveChain_eq_ok_iff.mp hnode
    have hnamed := hplain.allWellNamed hbuilt hroot
    refine .append ?_ (ih hothers)
    cases plain? with
    | none => exact .nil
    | some node => exact hnamed.relabel hlabel

theorem allWellNamed_of_selection {spec : Spec} {root : ObjectType} {state after : State}
    {nodes : List Node} (h : (compiler.selection spec root state).result = .ok (nodes, after))
    (hbuilt : compiler.registry.Built) (hroot : root.WellNamed) : Node.AllWellNamed nodes := by
  cases hselector : spec.selector with
  | none =>
    obtain ⟨included, hincluded, rfl⟩ := (selection_eq_ok_iff_of_includes hselector).mp h
    exact (Node.allWellNamed_leavesOf hroot).append
      (allWellNamed_of_resolveAll hincluded hbuilt hroot)
  | some selector =>
    obtain ⟨-, hchains, -⟩ := (selection_eq_ok_iff_of_selector hselector).mp h
    exact allWellNamed_of_resolveChains hchains hbuilt hroot

/-- All that a compiled query writes as a name is one. -/
theorem allWellNamed_of_compile {spec : Spec} {operation : Operation}
    (h : (compiler.compile spec).result = .ok operation) (hbuilt : compiler.registry.Built) :
    Node.AllWellNamed [operation.root] := by
  obtain ⟨hname, hadmissible, root, declared, ⟨nodes, after⟩, hroot, -, hselected, rfl⟩ :=
    compile_eq_ok_iff.mp h
  have hselection := (rootSelection_eq_ok_iff.mp hselected).1
  have hlabel : ∀ text, some Operation.resultLabel = some text → Name.isValid text = true := by
    intro text htext
    obtain rfl := Option.some.inj htext
    decide
  exact Node.allWellNamed_branch_iff.mpr
    ⟨wellNamed_of_bindingsOf hname hlabel (fun _ hargument => hargument) hadmissible,
      allWellNamed_of_selection hselection hbuilt (hbuilt.wellNamed hroot)⟩

end Compiler

end PathQuery.Query

namespace PathQuery.Transit

theorem built_registry : registry.Built :=
  Schema.Model.built_of_registry
    (rfl : Schema.Model.registry ⟨["Mode"], [⟨"Route", route.fields⟩, ⟨"Trip", trip.fields⟩,
      ⟨"Alert", alert.fields⟩]⟩ = .ok registry)

end PathQuery.Transit
