import PathQuery.Text.Quoted
/-!
# Faults of a model

Why a model of types is refused. References to types that do not exist are gathered over the whole
model and reported together; every other fault ends the assembly at once.
-/

namespace PathQuery.Schema

/-- A field whose type names something that is not there. -/
structure Dangling where
  field : String
  reference : String
  type : String
  deriving DecidableEq, Repr

inductive Error where
  | duplicateField (field type : String)
  | duplicateType (type : String)
  | invalidField (field type : String)
  | invalidType (type : String)
  | dangling (references : List Dangling)
  deriving DecidableEq, Repr

/-- One entry of the list of dangling references. -/
def Dangling.text (d : Dangling) : String :=
  s!"UndefinedTypeReference \x7b field_name: {Text.quoted d.field}, " ++
    s!"referenced_type: {Text.quoted d.reference}, type_name: {Text.quoted d.type} \x7d"

def Error.message : Error → String
  | .duplicateField field type => s!"Field `{field}` is defined more than once on type `{type}`"
  | .duplicateType type =>
    s!"Type `{type}` is defined more than once (or shadows a built-in scalar)"
  | .invalidField field type => s!"`{field}` on type `{type}` is not a valid GraphQL field name"
  | .invalidType type => s!"`{type}` is not a valid GraphQL type name"
  | .dangling references =>
    "Invalid type definitions: [" ++ ", ".intercalate (references.map Dangling.text) ++ "]"

end PathQuery.Schema
