import PathQuery.Query.Event
import PathQuery.Query.State
import PathQuery.Selection
import PathQuery.Value.Typing
/-!
# Arguments bound to variables

Each argument of a call becomes a variable of the query, and the call refers to the variable. An
argument whose value is null is left out of both, but its name has to be valid all the same.
-/

namespace PathQuery.Query

open Selection (Binding)

/-- Declare a variable for a value. `argument` is reported if the value has no type. -/
def declareVariable (names : ScalarNames) (declared : Variables) (argument name : String)
    (value : Value) : Compilation Variables :=
  if h : name ∈ declared.names then Logged.fail (.duplicateVariable name)
  else match value.typeName? names with
    | none => Logged.fail (.untypedArgument argument value.kind)
    | some type => do
      Logged.note (.declared name type)
      return declared.push ⟨name, type, value⟩ h

/-- Bind each argument to the variable that `rename` names after it. `onNull` is what is noted of an
argument that is left out. -/
def bindArguments (names : ScalarNames) (rename : String → String) (onNull : String → List Event) :
    List (String × Value) → Variables → Compilation (List Binding × Variables)
  | [], declared => return ([], declared)
  | (argument, value) :: rest, declared =>
    if !Name.isValid argument then Logged.fail (.invalidArgument argument)
    else if value.isNull then do
      Logged.noteAll (onNull argument)
      bindArguments names rename onNull rest declared
    else do
      let declared ← declareVariable names declared argument (rename argument) value
      let (bindings, declared) ← bindArguments names rename onNull rest declared
      return (⟨argument, rename argument⟩ :: bindings, declared)

end PathQuery.Query
