import PathQuery.Proofs.Document
/-!
# Variables in documents

A variable is mentioned in a document wherever its name stands behind a dollar sign. The header
mentions the variables that are declared, and the lines behind it those that are bound, each node's
own before those of the nodes below it (`variableNames_tokens`). So the two parts of a compiled
document mention the same variables in the same order, which are also those that are sent.
-/

namespace PathQuery

open Grammar

/-! ### Variables among tokens -/

namespace Grammar

/-- The names behind dollar signs. -/
def variableNames : List Token → List String
  | [] => []
  | .dollar :: .name name :: rest => name :: variableNames rest
  | _ :: rest => variableNames rest

/-- The variables a text mentions, in order and as often as it does, if it is made of tokens. -/
def mentioned? (text : String) : Option (List String) := (tokenize text.toList).map variableNames

theorem mentioned?_of_lexes {text : String} {tokens : List Token}
    (h : Lexes (text.toList ++ []) (tokens ++ [])) :
    mentioned? text = some (variableNames tokens) := by
  rw [List.append_nil, List.append_nil] at h
  rw [mentioned?, tokenize_of_lexes h, Option.map_some]

theorem variableNames_flatMap {α : Type} {tokensOf : α → List Token} {name : α → String}
    (h : ∀ item tokens, variableNames (tokensOf item ++ tokens) = name item :: variableNames tokens)
    (items : List α) (tokens : List Token) :
    variableNames (items.flatMap tokensOf ++ tokens) = items.map name ++ variableNames tokens := by
  induction items with
  | nil => rfl
  | cons item rest ih => rw [List.flatMap_cons, List.append_assoc, h, ih, List.map_cons,
      List.cons_append]

theorem TypeSyntax.variableNames_tokens (type : TypeSyntax) (tokens : List Token) :
    variableNames (type.tokens ++ tokens) = variableNames tokens := by
  induction type generalizing tokens with
  | named name => rfl
  | list element ih =>
    rw [TypeSyntax.tokens, List.cons_append, List.append_assoc]
    exact ih (.bracketRight :: tokens)

theorem Definition.variableNames_tokens (definition : Definition) (tokens : List Token) :
    variableNames (definition.tokens ++ tokens) =
      definition.variableName :: variableNames tokens := by
  show definition.variableName :: variableNames (definition.type.tokens ++ tokens) = _
  rw [TypeSyntax.variableNames_tokens]

/-- A header mentions the variables it declares. -/
theorem variableNames_headerTokens (definitions : List Definition) :
    variableNames (headerTokens definitions) = definitions.map Definition.variableName := by
  cases definitions with
  | nil => rfl
  | cons first others =>
    show variableNames ((first :: others).flatMap Definition.tokens ++ [.parenRight]) = _
    rw [variableNames_flatMap Definition.variableNames_tokens]
    exact List.append_nil _

end Grammar

/-! ### Variables in a selection -/

namespace Selection

theorem Binding.variableNames_tokens (binding : Binding) (tokens : List Token) :
    variableNames (binding.tokens ++ tokens) = binding.variableName :: variableNames tokens :=
  rfl

namespace Head

theorem variableNames_argumentTokens (head : Head) (tokens : List Token) :
    variableNames (head.argumentTokens ++ tokens) = head.boundNames ++ variableNames tokens := by
  rw [argumentTokens, boundNames]
  cases head.arguments with
  | nil => rfl
  | cons first others =>
    show variableNames (((first :: others).flatMap Binding.tokens ++ [.parenRight]) ++ tokens) = _
    rw [List.append_assoc, variableNames_flatMap Binding.variableNames_tokens]
    rfl

theorem variableNames_tokens (head : Head) (tokens : List Token) :
    variableNames (head.tokens ++ tokens) = head.boundNames ++ variableNames tokens := by
  rw [← variableNames_argumentTokens, Head.tokens, labelTokens]
  cases head.label with
  | none => rfl
  | some label => rfl

end Head

namespace Node

mutual

/-- Wherever a node is written, it mentions the variables that are bound in it. -/
theorem variableNames_tokens : ∀ (node : Node) (tokens : List Token),
    variableNames (node.tokens ++ tokens) = node.boundNames ++ variableNames tokens
  | leaf head, tokens => head.variableNames_tokens tokens
  | branch head children, tokens => by
    have hbelow := variableNames_allTokens children (.braceRight :: tokens)
    rw [Node.tokens, List.append_assoc, List.cons_append, List.append_assoc,
      Head.variableNames_tokens, boundNames, List.append_assoc]
    exact congrArg (head.boundNames ++ ·) hbelow

theorem variableNames_allTokens : ∀ (nodes : List Node) (tokens : List Token),
    variableNames (allTokens nodes ++ tokens) = allBoundNames nodes ++ variableNames tokens
  | [], tokens => rfl
  | node :: rest, tokens => by
    rw [allTokens, List.append_assoc, variableNames_tokens node, variableNames_allTokens rest,
      allBoundNames, List.append_assoc]

end

theorem mentioned?_indented {node : Node} (h : AllWellNamed [node]) (depth : Nat) :
    mentioned? (node.indented depth) = some node.boundNames := by
  rw [mentioned?_of_lexes (lexes_indented depth h .stop), ← List.append_nil node.tokens,
    variableNames_tokens]
  exact congrArg some (List.append_nil _)

end Node

end Selection

/-! ### The two parts of a document -/

namespace Query

open Selection (Node)

theorem mentioned?_headerOf {definitions : List Definition}
    (h : ∀ definition ∈ definitions, definition.WellNamed) :
    mentioned? (headerOf (definitions.map fun d => (d.variableName, d.type.text))) =
      some (definitions.map Definition.variableName) := by
  rw [headerOf_eq_headerText, mentioned?_of_lexes (lexes_headerText h .stop),
    variableNames_headerTokens]

namespace Compiler

variable {compiler : Compiler}

/-- A document is a header and lines of fields. The variables that the header declares, those that
are sent and those that are bound in the lines are the same, in the same order and none twice, and
this is how the two parts mention them. Each variable is declared with the type of its value, which
is not null. -/
theorem compile_declares_bound_variables {spec : Spec} {operation : Operation}
    (h : (compiler.compile spec).result = .ok operation) :
    operation.document = "query" ++ headerOf operation.definitions ++ " \x7b\n" ++
        operation.root.indented 1 ++ "\x7d" ∧
      (compiler.registry.Built →
        mentioned? (operation.root.indented 1) = some operation.root.boundNames) ∧
      (TypesNamed compiler.settings.scalarNames spec →
        mentioned? (headerOf operation.definitions) = some operation.root.boundNames) ∧
      operation.definitions.map Prod.fst = operation.root.boundNames ∧
      operation.variables.map Prod.fst = operation.root.boundNames ∧
      operation.root.boundNames.Nodup ∧
      (operation.definitions.map fun d => (d.1, some d.2)) =
        (operation.variables.map fun v =>
          (v.1, v.2.typeName? compiler.settings.scalarNames)) ∧
      ∀ v ∈ operation.variables, v.2.isNull = false := by
  obtain ⟨-, -, -, hbound⟩ := declared_of_compile h
  have htyped := typed_of_compile h
  have hdeclared : operation.definitions.map Prod.fst = operation.root.boundNames := by
    rw [← hbound, Operation.definitions, List.map_map]
    rfl
  refine ⟨operation.document_eq, fun hbuilt => ?_, fun htypes => ?_, hdeclared, ?_, ?_, ?_, ?_⟩
  · exact Node.mentioned?_indented (allWellNamed_of_compile h hbuilt) 1
  · obtain ⟨definitions, hnamed, hdefinitions⟩ :=
      exists_definitions (exists_definition_of_compile h htypes)
    have hnames : definitions.map Definition.variableName = operation.root.boundNames := by
      rw [← hdeclared, Operation.definitions, ← hdefinitions, List.map_map]
      rfl
    rw [Operation.definitions, ← hdefinitions, mentioned?_headerOf hnamed, hnames]
  · rw [← hbound, Operation.variables, List.map_map]
    rfl
  · rw [← hbound]
    exact operation.declared.nodup_names
  · rw [Operation.definitions, Operation.variables, List.map_map, List.map_map]
    apply List.map_congr_left
    intro v hv
    simp [htyped v hv]
  · intro v hv
    obtain ⟨declaredVariable, hmem, rfl⟩ := List.mem_map.mp hv
    have htype := htyped declaredVariable hmem
    cases hnull : declaredVariable.value.isNull with
    | false => rfl
    | true =>
      rw [Value.isNull_eq_true_iff.mp hnull] at htype
      simp [Value.typeName?] at htype

/-- The relation to the alerts is left out together with its variable. -/
theorem compile_declares_bound_variables_of_route :
    (Compiler.compile ⟨Transit.registry, { emptySelection := .omit }⟩ Transit.spec).result =
        .ok Transit.operation ∧
      Transit.registry.Built ∧ TypesNamed .standard Transit.spec ∧
      Transit.operation.root.boundNames = ["id", "serviceDate2"] ∧
      Transit.operation.document = "query" ++ headerOf Transit.operation.definitions ++ " \x7b\n" ++
        Transit.operation.root.indented 1 ++ "\x7d" ∧
      mentioned? (Transit.operation.root.indented 1) = some Transit.operation.root.boundNames ∧
      mentioned? (headerOf Transit.operation.definitions) =
        some Transit.operation.root.boundNames ∧
      Transit.operation.definitions.map Prod.fst = Transit.operation.root.boundNames ∧
      Transit.operation.variables.map Prod.fst = Transit.operation.root.boundNames ∧
      Transit.operation.root.boundNames.Nodup ∧
      (Transit.operation.definitions.map fun d => (d.1, some d.2)) =
        (Transit.operation.variables.map fun v => (v.1, v.2.typeName? .standard)) ∧
      ∀ v ∈ Transit.operation.variables, v.2.isNull = false := by
  have hcompile : (Compiler.compile ⟨Transit.registry, { emptySelection := .omit }⟩
      Transit.spec).result = .ok Transit.operation := rfl
  obtain ⟨hdocument, hbody, hheader, hrest⟩ := compile_declares_bound_variables hcompile
  exact ⟨hcompile, Transit.built_registry, typesNamed_spec, by decide, hdocument,
    hbody Transit.built_registry, hheader typesNamed_spec, hrest⟩

end Compiler

end Query

end PathQuery
