import PathQuery.Proofs.Compilation
/-!
# Declared variables are the bound ones

A variable is declared when a field is given arguments, and bound where that field stands in the
selection. Between the two the selection is put together, and parts of it are left out again. What
relates them is `Follows.declares`: along any resolution the table of variables grows at its end by
the names that the nodes of the resolution bind, read in pre-order. Where a field is left out there
are no nodes, and the table is what it was before.
-/

namespace PathQuery.Selection

def Head.boundNames (head : Head) : List String := head.arguments.map Binding.variableName

namespace Node

mutual

/-- The names of the variables bound in a node: its own, then those below it. -/
def boundNames : Node → List String
  | leaf head => head.boundNames
  | branch head children => head.boundNames ++ allBoundNames children

def allBoundNames : List Node → List String
  | [] => []
  | node :: rest => boundNames node ++ allBoundNames rest

end

theorem allBoundNames_append (nodes others : List Node) :
    allBoundNames (nodes ++ others) = allBoundNames nodes ++ allBoundNames others := by
  induction nodes with
  | nil => rfl
  | cons node rest ih => rw [List.cons_append, allBoundNames, allBoundNames, ih, List.append_assoc]

@[simp] theorem allBoundNames_leavesOf (type : Schema.ObjectType) :
    allBoundNames (leavesOf type) = [] := by
  rw [leavesOf]
  induction type.leafNames with
  | nil => rfl
  | cons name rest ih => simp [allBoundNames, boundNames, Head.boundNames, ih]

theorem boundNames_relabel (label : String) (node : Node) :
    (node.relabel label).boundNames = node.boundNames := by
  cases node <;> simp [relabel, boundNames, Head.boundNames]

end Node

end PathQuery.Selection

namespace PathQuery.Query

open Schema (ObjectType)
open Selection (Node)

/-! ### Operations -/

/-- The variables in the header of the document, with the types they are declared with. -/
def Operation.definitions (operation : Operation) : List (String × String) :=
  operation.declared.toList.map fun v => (v.name, v.type)

/-- The variables that are sent, with their values. -/
def Operation.variables (operation : Operation) : List (String × Value) :=
  operation.declared.toList.map fun v => (v.name, v.value)

/-- The header that declares variables with their types. -/
def headerOf : List (String × String) → String
  | [] => ""
  | definitions =>
    " (" ++ ", ".intercalate (definitions.map fun d => "$" ++ d.1 ++ ": " ++ d.2) ++ ")"

theorem Operation.header_eq_headerOf (operation : Operation) :
    operation.header = headerOf operation.definitions := by
  rw [header, definitions]
  cases operation.declared.toList with
  | nil => rfl
  | cons v rest =>
    simp only [headerOf, List.map_cons, List.map_map]
    rfl

/-- A document is the header, and behind it the lines of the selection in braces. -/
theorem Operation.document_eq (operation : Operation) :
    operation.document = "query" ++ headerOf operation.definitions ++ " \x7b\n" ++
      operation.root.indented 1 ++ "\x7d" := by
  rw [document, header_eq_headerOf]

/-! ### What a resolution declares -/

/-- A variable that stands for a parameter of one of some calls. -/
structure Parametric (names : ScalarNames) (calls : List RelationCall) (v : Variable) : Prop where
  exists_parameter : ∃ call ∈ calls, ∃ parameter ∈ call.parameters.toList,
    Name.isValid parameter.1 = true ∧ (∃ position, v.name = positioned position parameter.1) ∧
      v.value = parameter.2
  typed : v.value.typeName? names = some v.type

theorem Parametric.mono {names : ScalarNames} {calls others : List RelationCall} {v : Variable}
    (h : Parametric names calls v) (hsubset : calls ⊆ others) : Parametric names others v := by
  obtain ⟨⟨call, hcall, rest⟩, typed⟩ := h
  exact ⟨⟨call, hsubset hcall, rest⟩, typed⟩

/-- From `before` to `after` the table of variables has grown at its end by the variables that
`nodes` bind, each of them for a parameter of a call that was still to come. -/
structure Declares (names : ScalarNames) (before after : State) (nodes : List Node) : Prop where
  exists_added : ∃ added : List Variable,
    after.declared.toList = before.declared.toList ++ added ∧
      added.map Variable.name = Node.allBoundNames nodes ∧
      ∀ v ∈ added, Parametric names before.cursor.pending v
  suffix : after.cursor.pending <:+ before.cursor.pending

namespace Declares

variable {names : ScalarNames} {before between after : State} {nodes others : List Node}

theorem of_bindsNothing (state : State) (h : Node.allBoundNames nodes = []) :
    Declares names state state nodes :=
  ⟨⟨[], by simp, by simp [h], by simp⟩, List.suffix_rfl⟩

theorem trans (first : Declares names before between nodes)
    (second : Declares names between after others) :
    Declares names before after (nodes ++ others) := by
  obtain ⟨added, hadded, hnames, hparametric⟩ := first.exists_added
  obtain ⟨more, hmore, hmoreNames, hmoreParametric⟩ := second.exists_added
  refine ⟨⟨added ++ more, ?_, ?_, ?_⟩, second.suffix.trans first.suffix⟩
  · rw [hmore, hadded, List.append_assoc]
  · rw [List.map_append, hnames, hmoreNames, Node.allBoundNames_append]
  · intro v hv
    rcases List.mem_append.mp hv with hv | hv
    · exact hparametric v hv
    · exact (hmoreParametric v hv).mono first.suffix.subset

theorem congr (h : Declares names before after nodes)
    (hnames : Node.allBoundNames others = Node.allBoundNames nodes) :
    Declares names before after others := by
  obtain ⟨added, hadded, hbound, hparametric⟩ := h.exists_added
  exact ⟨⟨added, hadded, hbound.trans hnames.symm, hparametric⟩, h.suffix⟩

/-- Cutting the table back to its former size restores it. -/
theorem take_size (h : Declares names before after nodes) :
    after.declared.take before.declared.size = before.declared := by
  obtain ⟨added, hadded, -, -⟩ := h.exists_added
  apply Variables.ext
  rw [Variables.toList_take, hadded, Variables.size, List.take_left]

end Declares

namespace Compiler

variable {compiler : Compiler}

/-- The field itself declares what it binds. -/
theorem declares_of_bindField {field : Schema.Field} {state bound : State}
    {bindings : List Selection.Binding}
    (h : (compiler.bindField field state).result = .ok (bindings, bound)) :
    Declares compiler.settings.scalarNames state bound
      [.leaf ⟨field.remoteName, none, bindings⟩] := by
  obtain ⟨hadmissible, rfl, hcursor, hdeclared⟩ := bindField_eq_ok_iff.mp h
  refine ⟨⟨_, hdeclared, ?_, ?_⟩, ?_⟩
  · rw [Cursor.declarations, map_name_declarationsOf hadmissible]
    simp [Node.allBoundNames, Node.boundNames, Selection.Head.boundNames, Cursor.arguments]
  · intro v hv
    obtain ⟨parameter, hparameter, -, hname, hvalue, htype⟩ := mem_declarationsOf hv
    obtain ⟨call, hcall, hmem⟩ := Cursor.mem_parameters hparameter
    exact ⟨⟨call, hcall, parameter, hmem, (hadmissible parameter hparameter).1, ⟨_, hname⟩,
      hvalue⟩, htype⟩
  · rw [hcursor]
    exact state.cursor.pending_pass_suffix field

theorem Follows.declares {segments : List String} {type : ObjectType} {state after : State}
    {nodes : List Node} (h : Follows compiler segments type state nodes after) :
    Declares compiler.settings.scalarNames state after nodes := by
  induction h with
  | stop => exact .of_bindsNothing _ (Node.allBoundNames_leavesOf _)
  | leaf step isLeaf bind => exact declares_of_bindField bind
  | branch step isLeaf bind target below keep ih =>
    apply ((declares_of_bindField bind).trans ih).congr
    simp [Node.allBoundNames, Node.boundNames]
  | omitted step isLeaf bind target below policy ih =>
    have hdropped := (declares_of_bindField bind).trans ih
    -- Nothing is left of what was declared, but the cursor has moved on.
    rw [hdropped.take_size]
    exact ⟨⟨[], by simp, rfl, by simp⟩, hdropped.suffix⟩

theorem Descends.allBoundNames_eq_nil {steps : List String} {type : ObjectType}
    {node? : Option Node} (h : Descends compiler steps type node?) :
    Node.allBoundNames node?.toList = [] := by
  induction h with
  | stop => rfl
  | leaf field?_eq isLeaf => rfl
  | last field?_eq isLeaf target keep =>
    simp [Node.allBoundNames, Node.boundNames, Selection.Head.boundNames]
  | omitted field?_eq isLeaf target none_below policy => rfl
  | @outer step rest type field child inner? field?_eq isLeaf target rest_ne below ih =>
    cases inner? with
    | none => rfl
    | some inner =>
      simpa [Node.allBoundNames, Node.boundNames, Selection.Head.boundNames] using ih

theorem declares_of_resolveAll {root : ObjectType} {includes : List Include} {state after : State}
    {nodes : List Node}
    (h : (compiler.resolveAll root includes state).result = .ok (nodes, after)) :
    Declares compiler.settings.scalarNames state after nodes := by
  induction includes generalizing state nodes with
  | nil =>
    obtain ⟨rfl, rfl⟩ := resolveAll_nil_eq_ok_iff.mp h
    exact .of_bindsNothing _ rfl
  | cons inclusion rest ih =>
    obtain ⟨first, between, others, hfirst, hothers, rfl⟩ := resolveAll_cons_eq_ok_iff.mp h
    exact hfirst.declares.trans (ih hothers)

theorem allBoundNames_of_resolveChains {root : ObjectType} {chains : List Chain}
    {nodes : List Node} (h : (compiler.resolveChains root chains).result = .ok nodes) :
    Node.allBoundNames nodes = [] := by
  induction chains generalizing nodes with
  | nil =>
    obtain rfl : [] = nodes := Except.ok.inj h
    rfl
  | cons chain rest ih =>
    obtain ⟨node?, others, hnode, hothers, rfl⟩ := resolveChains_cons_eq_ok_iff.mp h
    obtain ⟨-, -, plain?, hdescends, rfl⟩ := resolveChain_eq_ok_iff.mp hnode
    have hplain := hdescends.allBoundNames_eq_nil
    rw [Node.allBoundNames_append, ih hothers, List.append_nil]
    cases plain? with
    | none => rfl
    | some node => simpa [Node.allBoundNames, Node.boundNames_relabel] using hplain

theorem declares_of_selection {spec : Spec} {root : ObjectType} {state after : State}
    {nodes : List Node} (h : (compiler.selection spec root state).result = .ok (nodes, after)) :
    Declares compiler.settings.scalarNames state after nodes := by
  cases hselector : spec.selector with
  | none =>
    obtain ⟨included, hincluded, rfl⟩ := (selection_eq_ok_iff_of_includes hselector).mp h
    apply (declares_of_resolveAll hincluded).congr
    rw [Node.allBoundNames_append, Node.allBoundNames_leavesOf, List.nil_append]
  | some selector =>
    obtain ⟨-, hchains, rfl⟩ := (selection_eq_ok_iff_of_selector hselector).mp h
    exact .of_bindsNothing _ (allBoundNames_of_resolveChains hchains)

/-- The variables of a compiled query: those of its arguments, and behind them those that its
selection binds. -/
theorem declared_of_compile {spec : Spec} {operation : Operation}
    (h : (compiler.compile spec).result = .ok operation) :
    ∃ added, operation.declared.toList =
        declarationsOf compiler.settings.scalarNames id spec.arguments.toList ++ added ∧
      (∀ v ∈ added, Parametric compiler.settings.scalarNames
        (spec.includes.flatMap Include.calls) v) ∧
      operation.declared.toList.map Variable.name = operation.root.boundNames := by
  obtain ⟨-, hadmissible, root, declared, ⟨nodes, after⟩, -, hdeclared, hselected, rfl⟩ :=
    compile_eq_ok_iff.mp h
  have hselection := (rootSelection_eq_ok_iff.mp hselected).1
  obtain ⟨added, hadded, hnames, hparametric⟩ := (declares_of_selection hselection).exists_added
  have hall : after.declared.toList =
      declarationsOf compiler.settings.scalarNames id spec.arguments.toList ++ added := by
    rw [← hdeclared]
    exact hadded
  refine ⟨added, hall, hparametric, ?_⟩
  simp only [assemble, Node.boundNames, Selection.Head.boundNames]
  rw [hall, List.map_append, map_name_declarationsOf hadmissible, hnames]

theorem typed_of_compile {spec : Spec} {operation : Operation}
    (h : (compiler.compile spec).result = .ok operation) :
    ∀ v ∈ operation.declared.toList,
      v.value.typeName? compiler.settings.scalarNames = some v.type := by
  obtain ⟨added, hall, hparametric, -⟩ := declared_of_compile h
  intro v hv
  rw [hall, List.mem_append] at hv
  rcases hv with hv | hv
  · obtain ⟨_, _, _, _, _, htype⟩ := mem_declarationsOf hv
    exact htype
  · exact (hparametric v hv).typed

end Compiler

end PathQuery.Query
