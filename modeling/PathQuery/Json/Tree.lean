import PathQuery.Json.Token
import PathQuery.OrderedMap
/-!
# JSON text as a tree

Reading turns every text into a tree, also one that is not JSON: `broken` stands where the text
stopped making sense, and nothing stands behind it. A tree keeps what the text says and judges none
of it. Numbers are literals, keys may repeat, a string may have no content, and nesting has no
limit. So whoever takes a tree apart from left to right meets the first fault of the text first.
-/

namespace PathQuery.Json

inductive Tree where
  | null
  | bool (b : Bool)
  | number (literal : Literal)
  | string (content : Option String)
  | array (items : List Tree)
  | object (entries : List (Option String × Tree))
  | broken

namespace Tree

instance : Inhabited Tree := ⟨.broken⟩

mutual

/-- The value at the head of the tokens, and the tokens behind it. Every call uses one unit of the
first argument, so twice the number of tokens is enough. -/
def readValue : Nat → List Token → Tree × List Token
  | 0, _ => (.broken, [])
  | fuel + 1, tokens =>
    match tokens with
    | .null :: rest => (.null, rest)
    | .bool b :: rest => (.bool b, rest)
    | .number literal :: rest => (.number literal, rest)
    | .string content :: rest => (.string content, rest)
    | .openArray :: .closeArray :: rest => (.array [], rest)
    | .openArray :: rest =>
      let (items, rest) := readItems fuel rest
      (.array items, rest)
    | .openObject :: .closeObject :: rest => (.object [], rest)
    | .openObject :: rest =>
      let (entries, rest) := readEntries fuel rest
      (.object entries, rest)
    | _ => (.broken, [])

/-- One item or more, up to the bracket that closes them. -/
def readItems : Nat → List Token → List Tree × List Token
  | 0, _ => ([.broken], [])
  | fuel + 1, tokens =>
    let (item, rest) := readValue fuel tokens
    match rest with
    | .comma :: rest =>
      let (items, rest) := readItems fuel rest
      (item :: items, rest)
    | .closeArray :: rest => ([item], rest)
    | _ => ([item, .broken], [])

/-- One entry or more, up to the brace that closes them. -/
def readEntries : Nat → List Token → List (Option String × Tree) × List Token
  | 0, _ => ([(none, .broken)], [])
  | fuel + 1, tokens =>
    match tokens with
    | .string key :: .colon :: rest =>
      let (value, rest) := readValue fuel rest
      match rest with
      | .comma :: rest =>
        let (entries, rest) := readEntries fuel rest
        ((key, value) :: entries, rest)
      | .closeObject :: rest => ([(key, value)], rest)
      | _ => ([(key, value), (none, .broken)], [])
    | .string key :: _ => ([(key, .broken)], [])
    | _ => ([(none, .broken)], [])

end

/-- The tree of a text, and whether it takes up all of the text. -/
def read (text : String) : Tree × Bool :=
  let tokens := Token.scan text.toList
  let (tree, rest) := readValue (2 * tokens.length + 1) tokens
  (tree, rest.isEmpty)

mutual

/-- Whether the text of the tree is sound JSON. A number may have any magnitude and a string may
have no content, as long as they are spelled correctly. -/
def isSound : Tree → Bool
  | .broken => false
  | .array items => areSound items
  | .object entries => entriesAreSound entries
  | _ => true

def areSound : List Tree → Bool
  | [] => true
  | item :: rest => isSound item && areSound rest

def entriesAreSound : List (Option String × Tree) → Bool
  | [] => true
  | (_, value) :: rest => isSound value && entriesAreSound rest

end

mutual

/-- The tree with one entry per key in every object: a repeated key keeps its first place and its
last value. -/
def merged : Tree → Tree
  | .array items => .array (mergedItems items)
  | .object entries => .object (OrderedMap.ofList (mergedEntries entries)).toList
  | tree => tree

def mergedItems : List Tree → List Tree
  | [] => []
  | item :: rest => merged item :: mergedItems rest

def mergedEntries : List (Option String × Tree) → List (Option String × Tree)
  | [] => []
  | (key, value) :: rest => (key, merged value) :: mergedEntries rest

end

end Tree

end PathQuery.Json
