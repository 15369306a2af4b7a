import PathQuery.Value.Basic
/-!
# Why a query is not compiled

Each cause is one way in which a specification does not fit the model it is compiled against, or
holds a value that cannot be declared.
-/

namespace PathQuery.Query

inductive Error where
  | duplicateLabel (label : String)
  | duplicateVariable (name : String)
  | emptySegment (path : String)
  | emptySelection (path type : String)
  | invalidLabel (label : String)
  | invalidArgument (name : String)
  | invalidQuery (name : String)
  | pastLeaf (path segment type remaining : String)
  | undefinedField (path segment type : String)
  | undefinedType (name : String)
  | untypedArgument (argument : String) (kind : Value.Kind)
  | noChains
  | noSteps (label : String)
  deriving DecidableEq, Repr

namespace Error

/-- What is at fault: the specification's shape, or the type of one of its values. -/
inductive Category where
  | configuration
  | typeMapping
  deriving DecidableEq, Repr

def category : Error → Category
  | untypedArgument _ _ => .typeMapping
  | _ => .configuration

def message : Error → String
  | duplicateLabel label => s!"Selector alias `{label}` is used by more than one field chain"
  | duplicateVariable name => s!"Variable `${name}` would be declared more than once"
  | emptySegment path => s!"Path `{path}` contains an empty segment"
  | emptySelection path type =>
    s!"Path `{path}` reaches type `{type}`, which has no selectable fields"
  | invalidLabel label => s!"`{label}` is not a valid GraphQL alias"
  | invalidArgument name => s!"`{name}` is not a valid GraphQL argument name"
  | invalidQuery name => s!"`{name}` is not a valid GraphQL field name"
  | pastLeaf path segment type remaining =>
    s!"Path `{path}` continues past leaf field `{segment}` on type `{type}` " ++
      s!"(unresolved remainder: `{remaining}`)"
  | undefinedField path segment type =>
    s!"Segment `{segment}` of path `{path}` does not name a field on type `{type}`"
  | undefinedType name => s!"Type `{name}` is not defined in the type registry"
  | untypedArgument argument kind =>
    s!"Argument `{argument}` has a {kind.text} value with no corresponding remote type"
  | noChains => "Unsupported selector: a constructed selector needs at least one field chain"
  | noSteps label => s!"Unsupported selector: field chain aliased `{label}` selects no fields"

end Error

end PathQuery.Query
