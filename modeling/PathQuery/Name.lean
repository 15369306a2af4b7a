import PathQuery.Text.Lowercase
/-!
# Names

A name of the query language starts with an ASCII letter or an underscore and goes on with those and
ASCII digits. The local model writes its identifiers with a capital first letter; the remote side
spells the same identifier with its first character in lower case and the rest unchanged.
-/

namespace PathQuery.Name

def isStart (c : Char) : Bool := c == '_' || c.isAlpha

def isPart (c : Char) : Bool := isStart c || c.isDigit

def isValid (name : String) : Bool :=
  match name.toList with
  | [] => false
  | first :: rest => isStart first && rest.all isPart

/-- The remote spelling of a local identifier. The first character may become several. -/
def remote (name : String) : String :=
  match name.toList with
  | [] => ""
  | first :: rest => String.ofList (Text.lowercase first ++ rest)

end PathQuery.Name
