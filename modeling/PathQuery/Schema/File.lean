import PathQuery.Json.Decode
import PathQuery.Schema.Registry
/-!
# Models in files

How a model of types is spelled in JSON. A type is an object whose one key says what it is; a scalar
is named by its tag, alone or as an object with nothing under it.
-/

namespace PathQuery.Schema

open Json (Decoder Tree)

def scalarDecoder : Decoder Scalar
  | _, .string (some tag) | _ + 1, .object [(some tag, .null)] =>
    match Scalar.ofTag? tag with
    | some scalar => .ok scalar
    | none => .error .malformed
  | _, _ => .error .malformed

namespace TypeRef

def decoder : Nat → Tree → Except Json.Fault TypeRef
  | room + 1, .object [(some form, tree)] =>
    match form with
    | "Enum" => (Decoder.text room tree).map .enumeration
    | "List" => (decoder room tree).map .list
    | "Object" => (Decoder.text room tree).map .object
    | "Optional" => (decoder room tree).map .optional
    | "Scalar" => (scalarDecoder room tree).map .scalar
    | _ => .error .malformed
  | _, _ => .error .malformed

def toJson : TypeRef → Json
  | enumeration name => .object [("Enum", .string name)]
  | list inner => .object [("List", inner.toJson)]
  | object name => .object [("Object", .string name)]
  | optional inner => .object [("Optional", inner.toJson)]
  | scalar kind => .object [("Scalar", .string kind.tag)]

end TypeRef

def Field.decoder : Decoder Field :=
  Decoder.record ⟨"", .object ""⟩
    [ Decoder.required "name" Decoder.text fun field name => { field with name },
      Decoder.required "type" TypeRef.decoder fun field type => { field with type } ]

def ObjectType.Draft.decoder : Decoder ObjectType.Draft :=
  Decoder.record ⟨"", []⟩
    [ Decoder.required "fields" (Decoder.list Field.decoder) fun draft fields =>
        { draft with fields },
      Decoder.required "name" Decoder.text fun draft name => { draft with name } ]

def Model.decoder : Decoder Model :=
  Decoder.record ⟨[], []⟩
    [ Decoder.defaulted "enums" (Decoder.list Decoder.text) fun model enums =>
        { model with enums },
      Decoder.required "objects" (Decoder.list ObjectType.Draft.decoder) fun model objects =>
        { model with objects } ]

end PathQuery.Schema
