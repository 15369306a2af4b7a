import PathQuery.Name
import PathQuery.Selection
/-!
# The grammar of queries

The part of the query language that a compiled query needs, as two grammars. The lexical one says
which tokens a text is made of: names and eight marks, with blanks, line ends and commas between
them as anyone likes, and a name reaching as far as it can. The syntactic one says which tokens make
a query without a name of its own: variables with their types, if there are any, and then fields,
each with a label, arguments and a selection set or without. Whatever stands in parentheses or
braces is at least one thing.
-/

namespace PathQuery.Grammar

open Selection (Binding Head Node)

/-! ### Tokens -/

inductive Token where
  | name (text : String)
  | braceLeft
  | braceRight
  | bracketLeft
  | bracketRight
  | colon
  | dollar
  | parenLeft
  | parenRight
  deriving DecidableEq, Repr

/-- The token that a character is by itself. -/
def Token.ofChar? : Char → Option Token
  | '\x7b' => some braceLeft
  | '\x7d' => some braceRight
  | '[' => some bracketLeft
  | ']' => some bracketRight
  | ':' => some colon
  | '$' => some dollar
  | '(' => some parenLeft
  | ')' => some parenRight
  | _ => none

/-- Characters that only keep tokens apart. -/
def isIgnored (c : Char) : Bool :=
  c == ' ' || c == ',' || c == '\n' || c == '\r' || c == '\t' || c == '\uFEFF'

/-- Whether a name ends in front of the given text. -/
def endsName : List Char → Bool
  | [] => true
  | c :: _ => !Name.isPart c

/-- The lexical grammar. -/
inductive Lexes : List Char → List Token → Prop
  | stop : Lexes [] []
  | ignored {c text tokens} (ignored : isIgnored c = true) (rest : Lexes text tokens) :
      Lexes (c :: text) tokens
  | mark {c token text tokens} (ofChar : Token.ofChar? c = some token)
      (rest : Lexes text tokens) : Lexes (c :: text) (token :: tokens)
  | name {name text tokens} (valid : Name.isValid name = true) (ends : endsName text = true)
      (rest : Lexes text tokens) : Lexes (name.toList ++ text) (.name name :: tokens)

/-! ### Queries -/

/-- The type of a variable, as it is written. -/
inductive TypeSyntax where
  | named (name : String)
  | list (element : TypeSyntax)
  deriving DecidableEq, Repr

def TypeSyntax.text : TypeSyntax → String
  | named name => name
  | list element => "[" ++ element.text ++ "]"

structure Definition where
  variableName : String
  type : TypeSyntax
  deriving DecidableEq, Repr

/-- What a document says. -/
structure Request where
  definitions : List Definition
  fields : List Node

inductive Types : List Token → TypeSyntax → Prop
  | named {name} : Types [.name name] (.named name)
  | list {tokens element} (below : Types tokens element) :
      Types (.bracketLeft :: (tokens ++ [.bracketRight])) (.list element)

/-- Any number of variables with their types. -/
inductive Definitions : List Token → List Definition → Prop
  | nil : Definitions [] []
  | cons {name tokens type others definitions} (types : Types tokens type)
      (rest : Definitions others definitions) :
      Definitions (.dollar :: .name name :: .colon :: (tokens ++ others))
        (⟨name, type⟩ :: definitions)

/-- The variables of a query, if there are any. -/
inductive Header : List Token → List Definition → Prop
  | none : Header [] []
  | some {tokens definitions} (inner : Definitions tokens definitions)
      (definitions_ne : definitions ≠ []) :
      Header (.parenLeft :: (tokens ++ [.parenRight])) definitions

/-- Any number of arguments. -/
inductive Bindings : List Token → List Binding → Prop
  | nil : Bindings [] []
  | cons {argument name tokens bindings} (rest : Bindings tokens bindings) :
      Bindings (.name argument :: .colon :: .dollar :: .name name :: tokens)
        (⟨argument, name⟩ :: bindings)

/-- The arguments of a field, if there are any. -/
inductive Arguments : List Token → List Binding → Prop
  | none : Arguments [] []
  | some {tokens bindings} (inner : Bindings tokens bindings) (bindings_ne : bindings ≠ []) :
      Arguments (.parenLeft :: (tokens ++ [.parenRight])) bindings

/-- A field up to its selection set. -/
inductive Heads : List Token → Head → Prop
  | plain {name tokens bindings} (arguments : Arguments tokens bindings) :
      Heads (.name name :: tokens) ⟨name, none, bindings⟩
  | labelled {label name tokens bindings} (arguments : Arguments tokens bindings) :
      Heads (.name label :: .colon :: .name name :: tokens) ⟨name, some label, bindings⟩

/-- Any number of fields. -/
inductive Fields : List Token → List Node → Prop
  | nil : Fields [] []
  | leaf {tokens head others nodes} (heads : Heads tokens head) (rest : Fields others nodes) :
      Fields (tokens ++ others) (.leaf head :: nodes)
  | branch {tokens head inner children others nodes} (heads : Heads tokens head)
      (below : Fields inner children) (children_ne : children ≠ [])
      (rest : Fields others nodes) :
      Fields (tokens ++ .braceLeft :: (inner ++ .braceRight :: others))
        (.branch head children :: nodes)

/-- The syntactic grammar. -/
inductive Requests : List Token → Request → Prop
  | query {tokens definitions inner fields} (header : Header tokens definitions)
      (below : Fields inner fields) (fields_ne : fields ≠ []) :
      Requests (.name "query" :: (tokens ++ .braceLeft :: (inner ++ [.braceRight])))
        ⟨definitions, fields⟩

/-- A text is a query and says what the request holds. -/
def Derives (text : String) (request : Request) : Prop :=
  ∃ tokens, Lexes text.toList tokens ∧ Requests tokens request

end PathQuery.Grammar
