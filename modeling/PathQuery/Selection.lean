import PathQuery.Schema.ObjectType
/-!
# Selections

What a query asks for, as a tree of fields. A leaf has nothing below it. A branch has a selection
set, which may be empty. Each field may be relabelled in the result and may bind its arguments to
variables of the query.
-/

namespace PathQuery.Selection

/-- An argument of a field, bound to a variable of the query. -/
structure Binding where
  argument : String
  variableName : String
  deriving DecidableEq, Repr

/-- A field without what is selected below it. -/
structure Head where
  name : String
  label : Option String := none
  arguments : List Binding := []
  deriving DecidableEq, Repr

inductive Node where
  | leaf (head : Head)
  | branch (head : Head) (children : List Node)
  deriving Repr

namespace Node

def head : Node → Head
  | leaf head => head
  | branch head _ => head

def isLeaf : Node → Bool
  | leaf _ => true
  | branch _ _ => false

/-- The same field under another name in the result. -/
def relabel (label : String) : Node → Node
  | leaf head => leaf { head with label := some label }
  | branch head children => branch { head with label := some label } children

/-- The fields of a type that are selected by default. -/
def leavesOf (type : Schema.ObjectType) : List Node :=
  type.leafNames.map fun name => leaf ⟨name, none, []⟩

end Node

end PathQuery.Selection
