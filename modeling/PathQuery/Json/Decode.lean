import PathQuery.Json.Tree
/-!
# Reading shapes out of JSON

A decoder takes a tree apart from left to right and ends at the first fault. It is told how many
more levels of arrays and objects it may enter. A record is an object, or the array of its members
in their fixed order. Keys it does not know are passed over, and what they hold only has to be
sound.
-/

namespace PathQuery.Json

/-- Why a text was not read: it is not JSON of the right shape, or it is, and an object in it stands
for no value. -/
inductive Fault where
  | malformed
  | refused (object : Json)

abbrev Decoder (α : Type) := Nat → Tree → Except Fault α

namespace Decoder

variable {α σ : Type}

/-- How deeply arrays and objects may be nested. -/
def nestingLimit : Nat := 127

def text : Decoder String
  | _, .string (some s) => .ok s
  | _, _ => .error .malformed

def list (item : Decoder α) : Decoder (List α)
  | room + 1, .array items => items.mapM (item room)
  | _, _ => .error .malformed

def optional (decoder : Decoder α) : Decoder (Option α)
  | _, .null => .ok none
  | room, tree => (decoder room tree).map some

def entry (value : Tree → Except Fault α) : Option String × Tree → Except Fault (String × α)
  | (some key, tree) => (value tree).map fun a => (key, a)
  | (none, _) => .error .malformed

/-- The entries of an object in order; a repeated key keeps its first place and its last value. -/
def table (value : Decoder α) : Decoder (OrderedMap String α)
  | room + 1, .object entries =>
    (entries.mapM (entry (value room))).map OrderedMap.ofList
  | _, _ => .error .malformed

/-- One of several named forms: an object whose only key is the name. -/
def variant (form? : String → Option (Decoder α)) : Decoder α
  | room + 1, .object [(some name, tree)] =>
    match form? name with
    | some form => form room tree
    | none => .error .malformed
  | _, _ => .error .malformed

/-- A member of a record under construction. -/
structure Member (σ : Type) where
  key : String
  optional : Bool
  read : Nat → Tree → σ → Except Fault σ

/-- A member that must be present. -/
def required (key : String) (decoder : Decoder α) (put : σ → α → σ) : Member σ :=
  ⟨key, false, fun room tree s => (decoder room tree).map (put s)⟩

/-- A member that keeps its value from the start when it is absent. -/
def defaulted (key : String) (decoder : Decoder α) (put : σ → α → σ) : Member σ :=
  ⟨key, true, fun room tree s => (decoder room tree).map (put s)⟩

/-- Members in the order of the object; `seen` are the keys read so far, none of which may repeat.
-/
def readMembers (members : List (Member σ)) (room : Nat) (seen : List String) (s : σ) :
    List (Option String × Tree) → Except Fault σ
  | [] =>
    if members.all fun m => m.optional || seen.contains m.key then .ok s else .error .malformed
  | (none, _) :: _ => .error .malformed
  | (some key, tree) :: rest =>
    match members.find? (·.key == key) with
    | none => if tree.isSound then readMembers members room seen s rest else .error .malformed
    | some m =>
      if seen.contains key then .error .malformed
      else do
        let s ← m.read room tree s
        readMembers members room (key :: seen) s rest

/-- Members by position; those missing at the end must be optional. -/
def readPositions (room : Nat) (s : σ) : List (Member σ) → List Tree → Except Fault σ
  | [], [] => .ok s
  | [], _ :: _ => .error .malformed
  | members, [] => if members.all (·.optional) then .ok s else .error .malformed
  | m :: members, tree :: rest => do
    let s ← m.read room tree s
    readPositions room s members rest

def record (start : σ) (members : List (Member σ)) : Decoder σ
  | room + 1, .object entries => readMembers members room [] start entries
  | room + 1, .array items => readPositions room start members items
  | _, _ => .error .malformed

/-- Any JSON value. Here numbers must be in range and strings must have content. -/
def json : Nat → Tree → Except Fault Json
  | _, .null => .ok .null
  | _, .bool b => .ok (.bool b)
  | _, .number literal =>
    match literal.number? with
    | some n => .ok (.number n)
    | none => .error .malformed
  | _, .string (some s) => .ok (.string s)
  | room + 1, .array items => (items.mapM (json room)).map .array
  | room + 1, .object entries =>
    (entries.mapM (entry (json room))).map fun pairs => .object (OrderedMap.ofList pairs).toList
  | _, _ => .error .malformed

/-- Read a whole text. Only blanks may follow the value. -/
def run (decoder : Decoder α) (text : String) : Except Fault α := do
  let (tree, complete) := Tree.read text
  let a ← decoder nestingLimit tree
  if complete then return a else .error .malformed

end Decoder

end PathQuery.Json
