import PathQuery.Name
import PathQuery.Schema.TypeRef
/-!
# Object types

An object type has a name and fields in the order in which they were declared. A field is addressed
by its local name or by its remote one; where both readings of a segment name a field, the local
name wins, so that two fields differing only in the case of their first character both stay in
reach.

A draft takes fields one by one and refuses a name that is malformed or already taken.
-/

namespace PathQuery.Schema

structure Field where
  name : String
  type : TypeRef
  deriving DecidableEq, Repr

namespace Field

/-- The name the remote side knows the field by. -/
def remoteName (field : Field) : String := Name.remote field.name

def isNamed (field : Field) (segment : String) : Bool :=
  field.name == segment || field.remoteName == segment

/-- Whether selecting the field needs nothing selected below it. A list of leaves is such a field.
-/
def isLeaf (field : Field) : Bool := field.type.element.isLeaf

end Field

structure ObjectType where
  name : String
  fields : List Field
  deriving DecidableEq, Repr

namespace ObjectType

/-- The field a path segment addresses. -/
def field? (type : ObjectType) (segment : String) : Option Field :=
  (type.fields.find? (·.name == segment)).or (type.fields.find? (·.isNamed segment))

/-- The remote names of the fields that are selected by default, in declaration order. -/
def leafNames (type : ObjectType) : List String :=
  (type.fields.filter Field.isLeaf).map Field.remoteName

end ObjectType

end PathQuery.Schema
