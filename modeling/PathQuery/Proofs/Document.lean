import PathQuery.Proofs.EmptySelection
import PathQuery.Proofs.Reader
import PathQuery.Proofs.TypeNames
import PathQuery.Proofs.WellNamed
/-!
# Documents can be read back

The document of a compiled query is in the grammar of queries, and reading it gives back the
variables with their types and the whole tree of fields. The text is gone through from its end:
each part of it, put in front of a text with known tokens, adds its own tokens in front of those. A
part that ends in a name can only be put in front of a text that does not go on with the name, which
is why names have to be names and why there is a blank, a mark or a line end behind each of them.
-/

namespace PathQuery

open Grammar

/-! ### Headers -/

namespace Grammar

def TypeSyntax.tokens : TypeSyntax → List Token
  | named name => [.name name]
  | list element => .bracketLeft :: (element.tokens ++ [.bracketRight])

namespace Definition

def text (definition : Definition) : String :=
  "$" ++ definition.variableName ++ ": " ++ definition.type.text

def tokens (definition : Definition) : List Token :=
  .dollar :: .name definition.variableName :: .colon :: definition.type.tokens

structure WellNamed (definition : Definition) : Prop where
  variableName : Name.isValid definition.variableName = true
  type : Name.isValid definition.type.name = true

end Definition

def headerText : List Definition → String
  | [] => ""
  | definitions => " (" ++ ", ".intercalate (definitions.map Definition.text) ++ ")"

def headerTokens : List Definition → List Token
  | [] => []
  | definitions => .parenLeft :: (definitions.flatMap Definition.tokens ++ [.parenRight])

/-- Parts between commas. -/
theorem lexes_intercalate {α : Type} {part : α → String} {tokensOf : α → List Token}
    {items : List α} {text : List Char} {tokens : List Token}
    (hpart : ∀ item ∈ items, ∀ {text : List Char} {tokens : List Token}, endsName text = true →
      Lexes text tokens → Lexes ((part item).toList ++ text) (tokensOf item ++ tokens))
    (ends : endsName text = true) (rest : Lexes text tokens) :
    Lexes ((", ".intercalate (items.map part)).toList ++ text)
      (items.flatMap tokensOf ++ tokens) := by
  induction items with
  | nil => exact rest
  | cons item others ih =>
    rw [List.forall_mem_cons] at hpart
    cases others with
    | nil =>
      rw [List.map_singleton, String.intercalate_singleton, List.flatMap_singleton]
      exact hpart.1 ends rest
    | cons next others =>
      have hothers := ih hpart.2
      rw [List.map_cons, List.map_cons, String.intercalate_cons_cons, List.flatMap_cons,
        String.toList_append, String.toList_append, List.append_assoc, List.append_assoc,
        List.append_assoc]
      exact hpart.1 rfl (.ignored rfl (.ignored rfl hothers))

variable {text : List Char}

theorem TypeSyntax.types_tokens : ∀ type : TypeSyntax, Types type.tokens type
  | named _ => .named
  | list element => .list element.types_tokens

theorem TypeSyntax.lexes_text {type : TypeSyntax} (h : Name.isValid type.name = true)
    {tokens : List Token} (ends : endsName text = true) (rest : Lexes text tokens) :
    Lexes (type.text.toList ++ text) (type.tokens ++ tokens) := by
  induction type generalizing text tokens with
  | named name => exact .name h ends rest
  | list element ih =>
    simp only [TypeSyntax.text, TypeSyntax.tokens, String.toList_append, List.append_assoc,
      List.cons_append, List.nil_append]
    exact .mark rfl (ih h rfl (.mark rfl rest))

namespace Definition

theorem lexes_text {definition : Definition} (h : definition.WellNamed) {tokens : List Token}
    (ends : endsName text = true) (rest : Lexes text tokens) :
    Lexes (definition.text.toList ++ text) (definition.tokens ++ tokens) := by
  simp only [Definition.text, Definition.tokens, String.toList_append, List.append_assoc,
    List.cons_append]
  exact .mark rfl (.name h.variableName rfl
    (.mark rfl (.ignored rfl (TypeSyntax.lexes_text h.type ends rest))))

end Definition

theorem header_headerTokens (definitions : List Definition) :
    Header (headerTokens definitions) definitions := by
  cases definitions with
  | nil => exact .none
  | cons first others =>
    refine .some ?_ (by simp)
    induction first :: others with
    | nil => exact .nil
    | cons definition rest ih => exact .cons definition.type.types_tokens ih

theorem lexes_headerText {definitions : List Definition}
    (h : ∀ definition ∈ definitions, definition.WellNamed) {tokens : List Token}
    (rest : Lexes text tokens) :
    Lexes ((headerText definitions).toList ++ text) (headerTokens definitions ++ tokens) := by
  cases definitions with
  | nil => exact rest
  | cons first others =>
    have hclosed : Lexes (')' :: text) (.parenRight :: tokens) := .mark rfl rest
    have hinner := lexes_intercalate (fun definition hdefinition _ _ =>
      Definition.lexes_text (h definition hdefinition)) rfl hclosed
    simp only [headerText, headerTokens, String.toList_append, List.append_assoc,
      List.cons_append, List.nil_append]
    exact .ignored rfl (.mark rfl hinner)

theorem endsName_headerText (definitions : List Definition) (ends : endsName text = true) :
    endsName ((headerText definitions).toList ++ text) = true := by
  cases definitions with
  | nil => exact ends
  | cons first others => simp [headerText, endsName, Name.isPart, Name.isStart]

end Grammar

/-! ### Fields -/

namespace Selection

def Binding.tokens (binding : Binding) : List Token :=
  [.name binding.argument, .colon, .dollar, .name binding.variableName]

namespace Head

def labelTokens (head : Head) : List Token :=
  match head.label with
  | some label => [.name label, .colon]
  | none => []

def argumentTokens (head : Head) : List Token :=
  match head.arguments with
  | [] => []
  | arguments => .parenLeft :: (arguments.flatMap Binding.tokens ++ [.parenRight])

def tokens (head : Head) : List Token :=
  head.labelTokens ++ .name head.name :: head.argumentTokens

end Head

namespace Node

mutual

def tokens : Node → List Token
  | leaf head => head.tokens
  | branch head children => head.tokens ++ .braceLeft :: (allTokens children ++ [.braceRight])

def allTokens : List Node → List Token
  | [] => []
  | node :: rest => tokens node ++ allTokens rest

end

end Node

variable {text : List Char} {tokens : List Token}

theorem Binding.lexes_text {binding : Binding} (hargument : Name.isValid binding.argument = true)
    (hname : Name.isValid binding.variableName = true) (ends : endsName text = true)
    (rest : Lexes text tokens) :
    Lexes (binding.text.toList ++ text) (binding.tokens ++ tokens) := by
  rw [Binding.text, String.toList_append, String.toList_append, List.append_assoc,
    List.append_assoc]
  exact .name hargument rfl (.mark rfl (.ignored rfl (.mark rfl (.name hname ends rest))))

namespace Head

theorem endsName_argumentsText (head : Head) (ends : endsName text = true) :
    endsName (head.argumentsText.toList ++ text) = true := by
  rw [argumentsText]
  cases head.arguments with
  | nil => exact ends
  | cons first others => simp [endsName, Name.isPart, Name.isStart]

theorem lexes_argumentsText {head : Head} (h : head.WellNamed) (rest : Lexes text tokens) :
    Lexes (head.argumentsText.toList ++ text) (head.argumentTokens ++ tokens) := by
  have hargument := h.argument
  rw [argumentsText, argumentTokens]
  cases harguments : head.arguments with
  | nil => exact rest
  | cons first others =>
    rw [harguments] at hargument
    have hclosed : Lexes (')' :: text) (.parenRight :: tokens) := .mark rfl rest
    have hinner := lexes_intercalate (fun binding hbinding _ _ =>
      Binding.lexes_text (hargument binding hbinding).1 (hargument binding hbinding).2) rfl hclosed
    simp only [String.toList_append, List.append_assoc, List.cons_append, List.nil_append]
    exact .mark rfl hinner

theorem lexes_text {head : Head} (h : head.WellNamed) (ends : endsName text = true)
    (rest : Lexes text tokens) : Lexes (head.text.toList ++ text) (head.tokens ++ tokens) := by
  have hname : Lexes (head.name.toList ++ (head.argumentsText.toList ++ text))
      (.name head.name :: (head.argumentTokens ++ tokens)) :=
    .name h.name (head.endsName_argumentsText ends) (lexes_argumentsText h rest)
  simp only [Head.text, Head.tokens, labelText, labelTokens, String.toList_append,
    List.append_assoc, List.cons_append]
  cases hlabel : head.label with
  | none => exact hname
  | some label =>
    simp only [String.toList_append, List.append_assoc]
    exact .name (h.label label hlabel) rfl (.mark rfl (.ignored rfl hname))

theorem heads_tokens (head : Head) : Heads head.tokens head := by
  have harguments : Arguments head.argumentTokens head.arguments := by
    rw [argumentTokens]
    cases head.arguments with
    | nil => exact .none
    | cons first others =>
      refine .some ?_ (by simp)
      induction first :: others with
      | nil => exact .nil
      | cons binding rest ih => exact .cons ih
  rw [tokens, labelTokens]
  obtain ⟨name, _ | label, arguments⟩ := head
  · exact .plain harguments
  · exact .labelled harguments

end Head

namespace Node

theorem lexes_indent (depth : Nat) (rest : Lexes text tokens) :
    Lexes ((indent depth).toList ++ text) tokens := by
  rw [indent, String.toList_ofList]
  induction 2 * depth with
  | zero => exact rest
  | succ n ih => exact .ignored rfl ih

mutual

theorem lexes_indented : ∀ {node : Node} (depth : Nat) {text : List Char} {tokens : List Token},
    AllWellNamed [node] → Lexes text tokens →
      Lexes ((node.indented depth).toList ++ text) (node.tokens ++ tokens)
  | leaf head, depth, text, tokens, h, rest => by
    have hhead := allWellNamed_leaf_iff.mp h
    simp only [indented, Node.tokens, String.toList_append, List.append_assoc]
    exact lexes_indent depth (Head.lexes_text hhead rfl (.ignored rfl rest))
  | branch head [], depth, text, tokens, h, rest => by
    obtain ⟨hhead, -⟩ := allWellNamed_branch_iff.mp h
    simp only [indented, Node.tokens, allTokens, String.toList_append, List.append_assoc,
      List.cons_append, List.nil_append]
    exact lexes_indent depth (Head.lexes_text hhead rfl
      (.ignored rfl (.mark rfl (.ignored rfl (.mark rfl (.ignored rfl rest))))))
  | branch head (first :: others), depth, text, tokens, h, rest => by
    obtain ⟨hhead, hchildren⟩ := allWellNamed_branch_iff.mp h
    have hclosed : Lexes ((indent depth).toList ++ '\x7d' :: '\n' :: text)
        (.braceRight :: tokens) := lexes_indent depth (.mark rfl (.ignored rfl rest))
    have hbelow := lexes_allIndented (depth + 1) hchildren hclosed
    simp only [allIndented, allTokens, String.toList_append, List.append_assoc] at hbelow
    simp only [indented, Node.tokens, allTokens, String.toList_append, List.append_assoc,
      List.cons_append, List.nil_append]
    exact lexes_indent depth (Head.lexes_text hhead rfl
      (.ignored rfl (.mark rfl (.ignored rfl hbelow))))

theorem lexes_allIndented : ∀ {nodes : List Node} (depth : Nat) {text : List Char}
    {tokens : List Token}, AllWellNamed nodes → Lexes text tokens →
      Lexes ((allIndented depth nodes).toList ++ text) (allTokens nodes ++ tokens)
  | [], depth, text, tokens, h, rest => rest
  | node :: others, depth, text, tokens, h, rest => by
    obtain ⟨hnode, hothers⟩ := allWellNamed_cons_iff.mp h
    simp only [allIndented, allTokens, String.toList_append, List.append_assoc]
    exact lexes_indented depth hnode (lexes_allIndented depth hothers rest)

end

mutual

theorem fields_cons : ∀ {node : Node} {others : List Token} {nodes : List Node},
    node.isFilled = true → Fields others nodes → Fields (node.tokens ++ others) (node :: nodes)
  | leaf head, others, nodes, h, rest => .leaf head.heads_tokens rest
  | branch head children, others, nodes, h, rest => by
    obtain ⟨hne, hfilled⟩ := isFilled_branch_iff.mp h
    simp only [Node.tokens, List.append_assoc, List.cons_append, List.nil_append]
    exact .branch head.heads_tokens (fields_allTokens hfilled) hne rest

/-- The tokens of a selection are derived for it, if no selection set in it is empty. -/
theorem fields_allTokens : ∀ {nodes : List Node}, allFilled nodes = true →
    Fields (allTokens nodes) nodes
  | [], h => .nil
  | node :: rest, h => by
    obtain ⟨hnode, hrest⟩ := allFilled_cons_iff.mp h
    exact fields_cons hnode (fields_allTokens hrest)

end

end Node

end Selection

/-! ### The document -/

namespace Query

open Selection (Node)

theorem headerOf_eq_headerText (definitions : List Definition) :
    headerOf (definitions.map fun d => (d.variableName, d.type.text)) = headerText definitions := by
  cases definitions with
  | nil => rfl
  | cons first others =>
    simp only [headerOf, List.map_cons, List.map_map, headerText]
    rfl

theorem Operation.derives_document {operation : Operation} {definitions : List Definition}
    (hdefinitions : definitions.map (fun d => (d.variableName, d.type.text)) =
      operation.definitions)
    (hnamed : ∀ definition ∈ definitions, definition.WellNamed)
    (hroot : Node.AllWellNamed [operation.root]) (hfilled : operation.root.isFilled = true) :
    Derives operation.document ⟨definitions, [operation.root]⟩ := by
  have hheader : operation.header = headerText definitions := by
    rw [Operation.header_eq_headerOf, ← hdefinitions, headerOf_eq_headerText]
  have hclosed : Lexes ['\x7d'] [.braceRight] := .mark rfl .stop
  have hbody : Lexes (" \x7b\n".toList ++ ((operation.root.indented 1).toList ++ ['\x7d']))
      (.braceLeft :: (operation.root.tokens ++ [.braceRight])) :=
    .ignored rfl (.mark rfl (.ignored rfl (Node.lexes_indented 1 hroot hclosed)))
  refine ⟨_, ?_, .query (header_headerTokens definitions)
    (Node.fields_cons hfilled .nil) (by simp)⟩
  rw [Operation.document, hheader, List.append_nil]
  simp only [String.toList_append, List.append_assoc]
  exact .name (by decide) (endsName_headerText definitions rfl) (lexes_headerText hnamed hbody)

/-- The type names that a client brings along are names: those of the scalars, and those of the
enumerations among its arguments and parameters. -/
structure TypesNamed (names : ScalarNames) (spec : Spec) : Prop where
  scalar : ∀ scalar, Name.isValid (names.get scalar) = true
  argument : ∀ argument ∈ spec.arguments.toList, ∀ type ∈ argument.2.enumTypes,
    Name.isValid type = true
  parameter : ∀ call ∈ spec.includes.flatMap Include.calls,
    ∀ parameter ∈ call.parameters.toList, ∀ type ∈ parameter.2.enumTypes, Name.isValid type = true

/-- A variable with a name, declared with the type of its value, can be written down. -/
theorem exists_definition {names : ScalarNames} {v : Variable}
    (hname : Name.isValid v.name = true)
    (hscalar : ∀ scalar, Name.isValid (names.get scalar) = true)
    (henum : ∀ type ∈ v.value.enumTypes, Name.isValid type = true)
    (htype : v.value.typeName? names = some v.type) :
    ∃ definition : Definition, definition.WellNamed ∧
      (definition.variableName, definition.type.text) = (v.name, v.type) := by
  obtain ⟨written, htext, hwritten⟩ := Value.names_of_typeName? htype
  refine ⟨⟨v.name, written⟩, ⟨hname, ?_⟩, by rw [htext]⟩
  rcases hwritten with hmem | ⟨scalar, hget⟩
  · exact henum _ hmem
  · exact hget ▸ hscalar scalar

theorem exists_definitions {vs : List Variable}
    (h : ∀ v ∈ vs, ∃ definition : Definition, definition.WellNamed ∧
      (definition.variableName, definition.type.text) = (v.name, v.type)) :
    ∃ definitions : List Definition, (∀ definition ∈ definitions, definition.WellNamed) ∧
      definitions.map (fun d => (d.variableName, d.type.text)) =
        vs.map fun v => (v.name, v.type) := by
  induction vs with
  | nil => exact ⟨[], by simp, rfl⟩
  | cons v rest ih =>
    rw [List.forall_mem_cons] at h
    obtain ⟨definition, hnamed, htext⟩ := h.1
    obtain ⟨definitions, hall, hmap⟩ := ih h.2
    exact ⟨definition :: definitions, List.forall_mem_cons.mpr ⟨hnamed, hall⟩,
      by rw [List.map_cons, List.map_cons, htext, hmap]⟩

namespace Compiler

variable {compiler : Compiler}

theorem exists_definition_of_compile {spec : Spec} {operation : Operation}
    (h : (compiler.compile spec).result = .ok operation)
    (htypes : TypesNamed compiler.settings.scalarNames spec) :
    ∀ v ∈ operation.declared.toList, ∃ definition : Definition, definition.WellNamed ∧
      (definition.variableName, definition.type.text) = (v.name, v.type) := by
  obtain ⟨-, hadmissible, -⟩ := compile_eq_ok_iff.mp h
  obtain ⟨added, hall, hparametric, -⟩ := declared_of_compile h
  intro v hv
  rw [hall, List.mem_append] at hv
  rcases hv with hv | hv
  · obtain ⟨argument, hargument, -, hname, hvalue, htype⟩ := mem_declarationsOf hv
    refine exists_definition ?_ htypes.scalar ?_ htype
    · rw [hname]
      exact (hadmissible argument hargument).1
    · rw [hvalue]
      exact htypes.argument argument hargument
  · obtain ⟨⟨call, hcall, parameter, hparameter, hvalid, ⟨position, hname⟩, hvalue⟩, htype⟩ :=
      hparametric v hv
    refine exists_definition ?_ htypes.scalar ?_ htype
    · rw [hname]
      exact Name.isValid_positioned hvalid position
    · rw [hvalue]
      exact htypes.parameter call hcall parameter hparameter

/-- Unless empty selection sets are written, the document of a compiled query is in the grammar, and
reading it gives back the variables with their types and the one field that the query asks for, with
its arguments and all that was selected below it. -/
theorem read_document_of_compile {spec : Spec} {operation : Operation}
    (hbuilt : compiler.registry.Built) (hpolicy : compiler.settings.emptySelection ≠ .render)
    (htypes : TypesNamed compiler.settings.scalarNames spec)
    (h : (compiler.compile spec).result = .ok operation) :
    ∃ request, Derives operation.document request ∧ read operation.document = some request ∧
      request.definitions.map (fun d => (d.variableName, d.type.text)) = operation.definitions ∧
      ∃ root bindings declared nodes after,
        compiler.registry.object? spec.root = some root ∧
        (bindArguments compiler.settings.scalarNames id (fun argument => [.nullArgument argument])
          spec.arguments.toList ∅).result = .ok (bindings, declared) ∧
        (compiler.rootSelection spec root ⟨Cursor.ofIncludes spec.includes, declared⟩).result =
          .ok (nodes, after) ∧
        request.fields =
          [.branch ⟨Name.remote spec.name, some Operation.resultLabel, bindings⟩ nodes] := by
  obtain ⟨definitions, hnamed, hdefinitions⟩ :=
    exists_definitions (exists_definition_of_compile h htypes)
  have hroot := allWellNamed_of_compile h hbuilt
  obtain ⟨hne, hselected⟩ := selection_of_compile h hpolicy
  obtain ⟨-, hadmissible, root, declared, ⟨nodes, after⟩, hobject, hdeclared, hselection, rfl⟩ :=
    compile_eq_ok_iff.mp h
  have hfilled : (assemble spec (nodes, after)).root.isFilled = true :=
    Node.isFilled_branch_iff.mpr ⟨hne, hselected⟩
  have hderives := Operation.derives_document hdefinitions hnamed hroot hfilled
  exact ⟨_, hderives, read_eq_some_iff.mpr hderives, hdefinitions, root, _, declared, nodes, after,
    hobject, bindArguments_eq_ok_iff.mpr ⟨hadmissible, rfl, hdeclared⟩, hselection, rfl⟩

/-- A route has no enumeration values among its arguments and parameters. -/
theorem typesNamed_spec : TypesNamed .standard Transit.spec := by
  refine ⟨?_, ?_, ?_⟩
  · intro scalar
    cases scalar <;> decide
  · simp [Transit.spec, OrderedMap.insert, OrderedMap.empty, OrderedMap.write, Value.enumTypes]
  · simp [Transit.spec, OrderedMap.insert, OrderedMap.empty, OrderedMap.write, Value.enumTypes]

/-- The document of a route is read back from its text. -/
theorem read_document_of_route :
    ∃ request, Derives Transit.operation.document request ∧
      read Transit.operation.document = some request ∧
      request.definitions.map (fun d => (d.variableName, d.type.text)) =
        Transit.operation.definitions ∧
      ∃ nodes, request.fields = [.branch ⟨"route", some "result", [⟨"id", "id"⟩]⟩ nodes] := by
  have hcompile : (Compiler.compile ⟨Transit.registry, { emptySelection := .omit }⟩
      Transit.spec).result = .ok Transit.operation := rfl
  obtain ⟨request, hderives, hread, hdefinitions, root, bindings, declared, nodes, after, -,
    hbindings, -, hfields⟩ :=
      read_document_of_compile Transit.built_registry (by simp) typesNamed_spec hcompile
  obtain rfl : [⟨"id", "id"⟩] = bindings := (Prod.mk.inj (Except.ok.inj hbindings)).1
  exact ⟨request, hderives, hread, hdefinitions, nodes, hfields⟩

end Compiler

end Query

end PathQuery
