import PathQuery.Scalar
/-!
# Argument values

The values that a query's arguments and the parameters of a relation may have. An enumeration value
carries the name of its type, because nothing else says what it has to be declared as.
-/

namespace PathQuery

inductive Value where
  | boolean (b : Bool)
  | enumeration (type name : String)
  | float (x : Float)
  | id (s : String)
  | int (n : Int64)
  | list (items : List Value)
  | null
  | string (s : String)

namespace Value

instance : Inhabited Value := ⟨.null⟩

def isNull : Value → Bool
  | .null => true
  | _ => false

/-- The coarse class of a value, for reports. -/
inductive Kind where
  | boolean
  | enumeration
  | float
  | id
  | int
  | list
  | null
  | string
  deriving DecidableEq, Repr

def Kind.text : Kind → String
  | boolean => "boolean"
  | enumeration => "enum"
  | float => "float"
  | id => "id"
  | int => "int"
  | list => "list"
  | null => "null"
  | string => "string"

def kind : Value → Kind
  | .boolean _ => .boolean
  | .enumeration _ _ => .enumeration
  | .float _ => .float
  | .id _ => .id
  | .int _ => .int
  | .list _ => .list
  | .null => .null
  | .string _ => .string

/-- The built-in scalar a value belongs to, if any. -/
def scalar? : Value → Option Scalar
  | .boolean _ => some .boolean
  | .float _ => some .float
  | .id _ => some .id
  | .int _ => some .int
  | .string _ => some .string
  | .enumeration _ _ | .list _ | .null => none

@[simp] theorem isNull_eq_true_iff {v : Value} : v.isNull = true ↔ v = .null := by
  cases v <;> simp [isNull]

end Value

end PathQuery
