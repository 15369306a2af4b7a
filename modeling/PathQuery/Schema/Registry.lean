import PathQuery.OrderedMap
import PathQuery.Schema.Error
import PathQuery.Schema.ObjectType
/-!
# The registry of types

The read-only table of all enumerations and object types of a model, in order of registration. It is
assembled in a draft. The draft refuses a type name that is malformed, taken by another type or
reserved for a scalar, and a finished registry refers only to types that it holds.
-/

namespace PathQuery.Schema

namespace ObjectType

/-- An object type that is still taking fields. -/
structure Draft where
  name : String
  fields : List Field := []
  deriving DecidableEq, Repr

namespace Draft

/-- Add a field behind the others. -/
def addField (draft : Draft) (field : Field) : Except Error Draft :=
  if !Name.isValid field.name then .error (.invalidField field.name draft.name)
  else if draft.fields.any (·.name == field.name) then
    .error (.duplicateField field.name draft.name)
  else .ok { draft with fields := draft.fields ++ [field] }

def addFields (draft : Draft) (fields : List Field) : Except Error Draft :=
  fields.foldlM addField draft

def build (draft : Draft) : Except Error ObjectType :=
  if Name.isValid draft.name then .ok ⟨draft.name, draft.fields⟩
  else .error (.invalidType draft.name)

end Draft

end ObjectType

structure Registry where
  enums : List String
  objects : OrderedMap String ObjectType

namespace Registry

def hasEnum (registry : Registry) (name : String) : Bool := registry.enums.contains name

def object? (registry : Registry) (name : String) : Option ObjectType := registry.objects.get? name

/-- A model that is still taking types. -/
structure Draft where
  enums : List String
  objects : OrderedMap String ObjectType

namespace Draft

def empty : Draft := ⟨[], ∅⟩

instance : Inhabited Draft := ⟨empty⟩

/-- Refuse a name that no new type may have. -/
def checkName (draft : Draft) (name : String) : Except Error Unit :=
  if !Name.isValid name then .error (.invalidType name)
  else if Scalar.all.any (·.name == name) || draft.enums.contains name ||
      draft.objects.contains name then
    .error (.duplicateType name)
  else .ok ()

def addEnum (draft : Draft) (name : String) : Except Error Draft := do
  draft.checkName name
  return { draft with enums := draft.enums ++ [name] }

def addObject (draft : Draft) (type : ObjectType) : Except Error Draft := do
  draft.checkName type.name
  return { draft with objects := draft.objects.insert type.name type }

/-- The name a field refers to without its being there. An enumeration is no object type, nor the
other way round. -/
def missing? (draft : Draft) (field : Field) : Option String :=
  match field.type.element.required with
  | .enumeration name => if draft.enums.contains name then none else some name
  | .object name => if draft.objects.contains name then none else some name
  | _ => none

/-- Every dangling reference, by type and then by field. -/
def dangling (draft : Draft) : List Dangling :=
  draft.objects.values.flatMap fun type =>
    type.fields.filterMap fun field =>
      (draft.missing? field).map fun name => ⟨field.name, name, type.name⟩

def build (draft : Draft) : Except Error Registry :=
  match draft.dangling with
  | [] => .ok ⟨draft.enums, draft.objects⟩
  | references => .error (.dangling references)

end Draft

end Registry

/-- A model as it is written down, before any check. -/
structure Model where
  enums : List String := []
  objects : List ObjectType.Draft := []
  deriving DecidableEq, Repr

namespace Model

/-- Register an object type from its declaration, field by field. -/
def addDeclared (draft : Registry.Draft) (declared : ObjectType.Draft) :
    Except Error Registry.Draft := do
  let checked ← ObjectType.Draft.addFields ⟨declared.name, []⟩ declared.fields
  let type ← checked.build
  draft.addObject type

/-- The registry of a model: all enumerations first, then the object types, each in order. -/
def registry (model : Model) : Except Error Registry := do
  let draft ← model.enums.foldlM Registry.Draft.addEnum Registry.Draft.empty
  let draft ← model.objects.foldlM addDeclared draft
  draft.build

end Model

end PathQuery.Schema
