import PathQuery.Value.Basic
/-!
# The type a value is declared with

A scalar is declared under its scalar's name and an enumeration value under the name of its type. A
list has a type if it has an element that is not null and all such elements have the same type;
nulls in it say nothing. Null itself has no type.
-/

namespace PathQuery.Value

/-- The type text of a list whose elements have the type `element`. -/
def listOf (element : String) : String := "[" ++ element ++ "]"

/-- The type all of the given types agree on. -/
def common? : List (Option String) → Option String
  | some type :: rest => if rest.all (· == some type) then some type else none
  | _ => none

mutual

def typeName? (names : ScalarNames) : Value → Option String
  | .enumeration type _ => some type
  | .list items => (common? (elementTypes names items)).map listOf
  | .null => none
  | .boolean _ => some (names.get .boolean)
  | .float _ => some (names.get .float)
  | .id _ => some (names.get .id)
  | .int _ => some (names.get .int)
  | .string _ => some (names.get .string)

/-- The types of the elements that are not null, in order. -/
def elementTypes (names : ScalarNames) : List Value → List (Option String)
  | [] => []
  | item :: rest =>
    if item.isNull then elementTypes names rest
    else typeName? names item :: elementTypes names rest

end

theorem elementTypes_eq_map (names : ScalarNames) (items : List Value) :
    elementTypes names items = (items.filter (!·.isNull)).map (typeName? names) := by
  induction items with
  | nil => simp [elementTypes]
  | cons item rest ih => cases h : item.isNull <;> simp [elementTypes, h, ih]

end PathQuery.Value
