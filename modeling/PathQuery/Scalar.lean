/-!
# Built-in scalars

The five scalar types every remote schema knows, the names it knows them by, and the names a client
may have them replaced by.
-/

namespace PathQuery

inductive Scalar where
  | boolean
  | float
  | id
  | int
  | string
  deriving DecidableEq, Repr

namespace Scalar

def all : List Scalar := [boolean, float, id, int, string]

/-- The standard name on the remote side. -/
def name : Scalar → String
  | boolean => "Boolean"
  | float => "Float"
  | id => "ID"
  | int => "Int"
  | string => "String"

/-- The spelling in files. It differs from the standard name for identifiers. -/
def tag : Scalar → String
  | boolean => "Boolean"
  | float => "Float"
  | id => "Id"
  | int => "Int"
  | string => "String"

def ofTag? (tag : String) : Option Scalar := all.find? (·.tag == tag)

theorem ofTag?_tag (scalar : Scalar) : ofTag? scalar.tag = some scalar := by
  cases scalar <;> decide

end Scalar

/-- The type name each scalar is declared with. -/
structure ScalarNames where
  boolean : String := Scalar.boolean.name
  float : String := Scalar.float.name
  id : String := Scalar.id.name
  int : String := Scalar.int.name
  string : String := Scalar.string.name
  deriving DecidableEq, Repr

namespace ScalarNames

def standard : ScalarNames := {}

instance : Inhabited ScalarNames := ⟨standard⟩

def get (names : ScalarNames) : Scalar → String
  | .boolean => names.boolean
  | .float => names.float
  | .id => names.id
  | .int => names.int
  | .string => names.string

def set (names : ScalarNames) (scalar : Scalar) (name : String) : ScalarNames :=
  match scalar with
  | .boolean => { names with boolean := name }
  | .float => { names with float := name }
  | .id => { names with id := name }
  | .int => { names with int := name }
  | .string => { names with string := name }

@[simp] theorem get_standard (scalar : Scalar) : standard.get scalar = scalar.name := by
  cases scalar <;> rfl

@[simp] theorem get_set (names : ScalarNames) (scalar other : Scalar) (name : String) :
    (names.set scalar name).get other = if other = scalar then name else names.get other := by
  cases scalar <;> cases other <;> rfl

end ScalarNames

end PathQuery
