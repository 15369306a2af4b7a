import PathQuery.Scalar
/-!
# Declared types of fields

A field's declared type names a scalar, an enumeration or an object type, and may wrap it in lists
and in optionality, in any order. Types are named and never pointed at, so a model may refer to
itself.

Two readings of a type matter. As something to select, lists and the optionality around them are
peeled off until an element type is left (`element`). As something to print, every layer shows.
-/

namespace PathQuery.Schema

inductive TypeRef where
  | enumeration (name : String)
  | list (inner : TypeRef)
  | object (name : String)
  | optional (inner : TypeRef)
  | scalar (kind : Scalar)
  deriving DecidableEq, Repr

namespace TypeRef

/-- The type without the optionality around it. -/
def required : TypeRef → TypeRef
  | optional inner => inner.required
  | type => type

/-- Whether there is nothing to select below a value of this type. A list is no leaf. -/
def isLeaf (type : TypeRef) : Bool :=
  match type.required with
  | enumeration _ | scalar _ => true
  | _ => false

/-- Whether this is a list, possibly an optional one. -/
def isCollection (type : TypeRef) : Bool :=
  match type.required with
  | list _ => true
  | _ => false

/-- What is left below all lists, if there is a list below the optionality. -/
def belowLists? : TypeRef → Option TypeRef
  | list inner => some (inner.belowLists?.getD inner)
  | optional inner => inner.belowLists?
  | _ => none

/-- The element type below all lists. A type that is no collection is its own element type, with its
optionality. -/
def element (type : TypeRef) : TypeRef := type.belowLists?.getD type

/-- The object type to select from, if there is one below all lists and optionality. -/
def objectName? (type : TypeRef) : Option String :=
  match type.element.required with
  | object name => some name
  | _ => none

def text : TypeRef → String
  | enumeration name | object name => name
  | list inner => "[" ++ inner.text ++ "]"
  | optional inner => inner.text ++ "?"
  | scalar kind => kind.name

end TypeRef

end PathQuery.Schema
