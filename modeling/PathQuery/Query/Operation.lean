import PathQuery.Query.State
import PathQuery.Selection.Text
import PathQuery.Value.Json
/-!
# Compiled queries

A compiled query is the variables it declares and the one field it asks for. It is written as a
document in the query language, and sent as a payload that holds the document and the values of the
variables.
-/

namespace PathQuery.Query

structure Operation where
  declared : Variables
  root : Selection.Node

namespace Operation

/-- The label every compiled query gives its result. -/
def resultLabel : String := "result"

/-- The declarations in front of the selection, if there are any. -/
def header (operation : Operation) : String :=
  match operation.declared.toList with
  | [] => ""
  | declared => " (" ++ ", ".intercalate (declared.map Variable.text) ++ ")"

def document (operation : Operation) : String :=
  "query" ++ operation.header ++ " \x7b\n" ++ operation.root.indented 1 ++ "\x7d"

/-- The document and the values of its variables, as sent. -/
def envelope (operation : Operation) : Json :=
  .object
    [ ("query", .string operation.document),
      ("variables", .object (operation.declared.toList.map fun v => (v.name, v.value.toJson))) ]

def payload (operation : Operation) : String := operation.envelope.compact

end Operation

end PathQuery.Query
