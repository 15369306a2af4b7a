import PathQuery.Query.Compiler
import PathQuery.Query.Spec
import PathQuery.Selection.Text
/-!
# Projections

A selector projects the root type to the fields its chains lead to. A chain is followed from the
root type like a path, but it consumes no relation calls. Its last step is selected with its leaf
fields, each step before it wraps what comes after it, and the first step carries the chain's label.
-/

namespace PathQuery.Query

open Schema (Field ObjectType)
open Selection (Node)

namespace Compiler

/-- The node of the steps of a chain, or none if the last step is left out. -/
def descend (compiler : Compiler) (path : String) :
    List String → ObjectType → Compilation (Option Node)
  | [], _ => return none
  | step :: rest, type =>
    match type.field? step with
    | none => Logged.fail (.undefinedField path step type.name)
    | some field =>
      if field.isLeaf then
        if rest.isEmpty then return some (.leaf ⟨field.remoteName, none, []⟩)
        else Logged.fail (.pastLeaf path step type.name (Path.join rest))
      else do
        let child ← Logged.ofExcept (compiler.target field.type.element)
        if rest.isEmpty then compiler.wrap field [] (Node.leavesOf child) path child
        else do
          let inner? ← descend compiler path rest child
          return inner?.map fun inner => .branch ⟨field.remoteName, none, []⟩ [inner]

/-- The labelled node of a chain, or none if it is left out. -/
def resolveChain (compiler : Compiler) (root : ObjectType) (chain : Chain) :
    Compilation (Option Node) :=
  if !Name.isValid chain.label then Logged.fail (.invalidLabel chain.label)
  else if chain.steps.isEmpty then Logged.fail (.noSteps chain.label)
  else do
    let node? ← compiler.descend chain.path chain.steps root
    match node? with
    | none => return none
    | some node => do
      let labelled := node.relabel chain.label
      Logged.note (.selected chain.path labelled.compact)
      return some labelled

/-- The nodes of chains in order. -/
def resolveChains (compiler : Compiler) (root : ObjectType) :
    List Chain → Compilation (List Node)
  | [] => return []
  | chain :: rest => do
    let node? ← compiler.resolveChain root chain
    let nodes ← resolveChains compiler root rest
    return node?.toList ++ nodes

end Compiler

/-- The first text that stands among `seen` or somewhere in front of itself. -/
def firstRepeated? (seen : List String) : List String → Option String
  | [] => none
  | text :: rest => if seen.contains text then some text else firstRepeated? (text :: seen) rest

namespace Selector

/-- Refuse a selector of several chains that has none or uses a label twice. -/
def check : Selector → Except Error Unit
  | single _ => .ok ()
  | constructed [] => .error .noChains
  | constructed chains =>
    match firstRepeated? [] (chains.map Chain.label) with
    | some label => .error (.duplicateLabel label)
    | none => .ok ()

end Selector

/-- The nodes of a selector on the root type. -/
def Compiler.resolveSelector (compiler : Compiler) (root : ObjectType) (selector : Selector) :
    Compilation (List Node) := do
  Logged.ofExcept selector.check
  compiler.resolveChains root selector.chains

end PathQuery.Query
