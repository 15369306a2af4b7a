import PathQuery.Query.Event
import PathQuery.Schema.Registry
import PathQuery.Selection
/-!
# The compiler and its settings

A compiler is a registry of types together with settings; nothing about it changes from one query to
the next. This module holds what includes and selectors have in common: how the object type below a
field is found, and what becomes of a field below which nothing is selected.
-/

namespace PathQuery.Query

open Schema (TypeRef Field ObjectType Registry)
open Selection (Binding Node)

/-- What becomes of a field of an object type when nothing is selected below it. -/
inductive EmptySelection where
  /-- The field is left out. -/
  | omit
  /-- The query is refused. -/
  | reject
  /-- The field is written with an empty selection set, which most servers refuse. -/
  | render
  deriving DecidableEq, Repr

structure Settings where
  emptySelection : EmptySelection := .reject
  scalarNames : ScalarNames := {}
  deriving DecidableEq, Repr

structure Compiler where
  registry : Registry
  settings : Settings := {}

namespace Compiler

/-- The object type behind an element type that is no leaf. -/
def target (compiler : Compiler) (element : TypeRef) : Except Error ObjectType :=
  match element.objectName? with
  | none => .error (.undefinedType element.text)
  | some name =>
    match compiler.registry.object? name with
    | none => .error (.undefinedType name)
    | some type => .ok type

/-- The node of `field` with `children` below it, or none if it is left out. -/
def wrap (compiler : Compiler) (field : Field) (arguments : List Binding) (children : List Node)
    (path : String) (child : ObjectType) : Compilation (Option Node) :=
  let node : Node := .branch ⟨field.remoteName, none, arguments⟩ children
  if children.isEmpty then
    match compiler.settings.emptySelection with
    | .omit => do
      Logged.note (.omitted field.remoteName path child.name)
      return none
    | .reject => Logged.fail (.emptySelection path child.name)
    | .render => return some node
  else return some node

end Compiler

end PathQuery.Query
