import PathQuery.Query.Projection
import PathQuery.Query.IncludePath
import PathQuery.Query.Operation
/-!
# Compiling a query

A specification is compiled against a registry. The remote name of the query and its root type come
first, then the arguments, then the selection; the first fault ends the compilation, and no partial
query is ever returned.
-/

namespace PathQuery.Query

open Schema (ObjectType)
open Selection (Node)

namespace Compiler

/-- The nodes of all includes in order, resolved with one cursor. -/
def resolveAll (compiler : Compiler) (root : ObjectType) :
    List Include → State → Compilation (List Node × State)
  | [], state => return ([], state)
  | inclusion :: rest, state => do
    let (nodes, state) ← compiler.resolve root inclusion.path state
    let (others, state) ← resolveAll compiler root rest state
    return (nodes ++ others, state)

/-- What a selector selects, if there is one; else the leaf fields of the root type and the
includes. -/
def selection (compiler : Compiler) (spec : Spec) (root : ObjectType) (state : State) :
    Compilation (List Node × State) :=
  match spec.selector with
  | some selector => do
    if !spec.includes.isEmpty then
      Logged.note (.includesIgnored spec.includes.length spec.name)
    let nodes ← compiler.resolveSelector root selector
    return (nodes, state)
  | none => do
    let (nodes, state) ← compiler.resolveAll root spec.includes state
    return (Node.leavesOf root ++ nodes, state)

/-- The selection below the root field. It is only empty where that is to be rendered. -/
def rootSelection (compiler : Compiler) (spec : Spec) (root : ObjectType) (state : State) :
    Compilation (List Node × State) := do
  let (nodes, state) ← compiler.selection spec root state
  if nodes.isEmpty && compiler.settings.emptySelection != .render then
    Logged.fail (.emptySelection "" root.name)
  else return (nodes, state)

def compile (compiler : Compiler) (spec : Spec) : Compilation Operation := do
  Logged.note (.started spec.name spec.root spec.arguments.size spec.includes.length
    spec.selector.isSome)
  let name := Name.remote spec.name
  if !Name.isValid name then Logged.fail (.invalidQuery spec.name)
  else match compiler.registry.object? spec.root with
    | none => Logged.fail (.undefinedType spec.root)
    | some root => do
      let start := State.start spec.includes
      let (bindings, declared) ← bindArguments compiler.settings.scalarNames id
        (fun argument => [.nullArgument argument]) spec.arguments.toList start.declared
      let (nodes, state) ← compiler.rootSelection spec root ⟨start.cursor, declared⟩
      if !state.cursor.pending.isEmpty then
        Logged.note (.unconsumed (state.cursor.pending.map RelationCall.name) spec.name)
      let operation : Operation :=
        ⟨state.declared, .branch ⟨name, some Operation.resultLabel, bindings⟩ nodes⟩
      Logged.note (.finished spec.name operation.document)
      return operation

end Compiler

end PathQuery.Query
