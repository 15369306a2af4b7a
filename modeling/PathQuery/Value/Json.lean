import PathQuery.Json.Basic
import PathQuery.Value.Basic
/-!
# Values as JSON

A value is written as plain JSON: an enumeration value by its name alone and an identifier as its
text. In the other direction the two are told apart from strings by being objects, with exactly the
keys `enum` and `value`, or exactly the key `id`. Any other object is refused.
-/

namespace PathQuery.Value

/-- Whole numbers that a value keeps as such. -/
def fitsInt (n : Int) : Bool := Int64.minValue.toInt ≤ n && n ≤ Int64.maxValue.toInt

def ofNumber : Json.Number → Value
  | .int n => if fitsInt n then .int (Int64.ofInt n) else .float (Binary.nearest (n < 0) n.natAbs 1)
  | .float x => .float x

/-- The value an object stands for. -/
def ofEntries? (entries : List (String × Json)) : Option Value :=
  match Json.text? "enum" entries, Json.text? "value" entries, Json.text? "id" entries,
      entries.length with
  | some type, some name, none, 2 => some (.enumeration type name)
  | none, none, some text, 1 => some (.id text)
  | _, _, _, _ => none

mutual

/-- The value, or the first object that stands for none. -/
def ofJson : Json → Except Json Value
  | .null => .ok .null
  | .bool b => .ok (.boolean b)
  | .number n => .ok (ofNumber n)
  | .string s => .ok (.string s)
  | .array items => (ofItems items).map .list
  | .object entries =>
    match ofEntries? entries with
    | some value => .ok value
    | none => .error (.object entries)

def ofItems : List Json → Except Json (List Value)
  | [] => .ok []
  | item :: rest => do
    let value ← ofJson item
    let values ← ofItems rest
    return value :: values

end

mutual

def toJson : Value → Json
  | .boolean b => .bool b
  | .enumeration _ name => .string name
  | .float x => if Binary.isFinite x then .number (.float x) else .null
  | .id s => .string s
  | .int n => .number (.int n.toInt)
  | .list items => .array (toItems items)
  | .null => .null
  | .string s => .string s

def toItems : List Value → List Json
  | [] => []
  | item :: rest => toJson item :: toItems rest

end

theorem toItems_eq_map (items : List Value) : toItems items = items.map toJson := by
  induction items with
  | nil => simp [toItems]
  | cons item rest ih => simp [toItems, ih]

/-- What is said about an object that stands for no value. -/
def refusal (object : Json) : String :=
  s!"Unsupported JSON object `{object.compact}`: " ++
    "expected `\x7b\"enum\": .., \"value\": ..\x7d` or `\x7b\"id\": ..\x7d`"

end PathQuery.Value
