import PathQuery.Query.Spec
import PathQuery.Schema.File
import PathQuery.Value.Decode
/-!
# Query specifications in files

How a specification is spelled in JSON.
-/

namespace PathQuery.Query

open Json (Decoder)

def RelationCall.decoder : Decoder RelationCall :=
  Decoder.record ⟨"", .object "", ∅⟩
    [ Decoder.required "name" Decoder.text fun call name => { call with name },
      Decoder.defaulted "parameters" (Decoder.table Value.decoder) fun call parameters =>
        { call with parameters },
      Decoder.required "return_type" Schema.TypeRef.decoder fun call returnType =>
        { call with returnType } ]

def Include.decoder : Decoder Include :=
  Decoder.record ⟨"", []⟩
    [ Decoder.defaulted "method_includes" (Decoder.list RelationCall.decoder)
        fun inclusion calls => { inclusion with calls },
      Decoder.required "path" Decoder.text fun inclusion path => { inclusion with path } ]

def Chain.decoder : Decoder Chain :=
  Decoder.record ⟨"", []⟩
    [ Decoder.required "alias" Decoder.text fun chain label => { chain with label },
      Decoder.required "steps" (Decoder.list Decoder.text) fun chain steps => { chain with steps } ]

def Selector.decoder : Decoder Selector :=
  Decoder.variant fun
    | "Constructed" => some fun room tree => (Decoder.list Chain.decoder room tree).map constructed
    | "SingleChain" => some fun room tree => (Chain.decoder room tree).map single
    | _ => none

def Spec.decoder : Decoder Spec :=
  Decoder.record ⟨"", "", ∅, [], none⟩
    [ Decoder.defaulted "arguments" (Decoder.table Value.decoder) fun spec arguments =>
        { spec with arguments },
      Decoder.defaulted "includes" (Decoder.list Include.decoder) fun spec includes =>
        { spec with includes },
      Decoder.required "query_name" Decoder.text fun spec name => { spec with name },
      Decoder.required "root_type" Decoder.text fun spec root => { spec with root },
      Decoder.defaulted "selector" (Decoder.optional Selector.decoder) fun spec selector =>
        { spec with selector } ]

end PathQuery.Query
