import PathQuery.Query.Arguments
import PathQuery.Query.Compiler
/-!
# Includes as selections

An include's path is followed segment by segment from the root type. Each segment selects one field,
below which the rest of the path is selected; at the end of a path the leaf fields of the type it
has reached are. A field that fits the relation call under the cursor consumes it and takes its
parameters as arguments, bound to variables that carry the call's position in their names.

A field that is left out, because nothing is selected below it, takes the variables declared on the
way with it. The calls consumed on the way stay consumed.
-/

namespace PathQuery.Query

open Schema (Field ObjectType)
open Selection (Binding Node)

/-- Whether a field is the parameterized relation that a call describes. -/
def RelationCall.fits (call : RelationCall) (field : Field) : Bool :=
  field.isNamed call.name && call.returnType == field.type

/-- The variable of a parameter of the call at a position. -/
def positioned (position : Nat) (parameter : String) : String := parameter ++ toString position

namespace Compiler

/-- Consume the call under the cursor if it describes `field`. -/
def bindField (compiler : Compiler) (field : Field) (state : State) :
    Compilation (List Binding × State) :=
  match state.cursor.peek? with
  | none => return ([], state)
  | some call =>
    if call.fits field then do
      let cursor := state.cursor.advance
      Logged.note (.consumed cursor.consumed call.name)
      let (bindings, declared) ← bindArguments compiler.settings.scalarNames
        (positioned cursor.consumed) (fun _ => []) call.parameters.toList state.declared
      return (bindings, ⟨cursor, declared⟩)
    else return ([], state)

/-- Drop the variables beyond the first `size`. -/
def dropBeyond (size : Nat) (state : State) : Compilation State := do
  Logged.noteAll ((state.declared.toList.drop size).map fun v => .dropped v.name)
  return { state with declared := state.declared.take size }

/-- What the remaining segments of `path` select on a type: the leaf fields at the end of the path,
and before it one field or, if that is left out, none. The variables of a field that is left out are
cut off, back to the number there was before it. -/
def follow (compiler : Compiler) (path : String) (segments : List String) (type : ObjectType)
    (state : State) (cut : Nat → State → Compilation State := dropBeyond) :
    Compilation (List Node × State) :=
  match segments with
  | [] => return (Node.leavesOf type, state)
  | segment :: rest =>
    if segment.isEmpty || rest == [""] then Logged.fail (.emptySegment path)
    else match type.field? segment with
      | none => Logged.fail (.undefinedField path segment type.name)
      | some field => do
        let (bindings, bound) ← compiler.bindField field state
        Logged.note (.resolved segment path type.name field.name field.type.text)
        if field.isLeaf then
          if rest.isEmpty then return ([.leaf ⟨field.remoteName, none, bindings⟩], bound)
          else Logged.fail (.pastLeaf path segment type.name (Path.join rest))
        else do
          let child ← Logged.ofExcept (compiler.target field.type.element)
          let (children, deeper) ← follow compiler path rest child bound cut
          let node? ← compiler.wrap field bindings children path child
          match node? with
          | some node => return ([node], deeper)
          | none => do
            let kept ← cut state.declared.size deeper
            return ([], kept)

/-- The nodes of an include on the root type. -/
def resolve (compiler : Compiler) (root : ObjectType) (path : String) (state : State) :
    Compilation (List Node × State) :=
  compiler.follow path (Path.segments path) root state

end Compiler

end PathQuery.Query
