import PathQuery.Json.Decode
import PathQuery.Value.Json
/-!
# Reading argument values

A value is read as JSON as a whole before anything in it is judged, so a fault in its text comes
before an object that stands for no value.
-/

namespace PathQuery

namespace Value

def decoder : Json.Decoder Value := fun room tree => do
  let json ← Json.Decoder.json room tree
  (ofJson json).mapError .refused

end Value

namespace Json.Fault

/-- The report on a fault of the text. -/
def message : Fault → String
  | malformed => "the text is not JSON of the expected shape"
  | refused found => Value.refusal found

end Json.Fault

end PathQuery
