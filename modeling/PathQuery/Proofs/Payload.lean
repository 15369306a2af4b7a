import PathQuery.Proofs.BoundVariables
import PathQuery.Proofs.JsonWriter
/-!
# Payloads can be read back

The payload of a compiled query is JSON and stands for one object: the document as it is, and the
value of every variable under its name, in the order of the header. A value is sent in its plain
form, which says nothing of the types of enumerations and nothing of what is an identifier.
-/

namespace PathQuery

/-! ### Plain forms -/

namespace Value

mutual

/-- The plain form of a value. -/
inductive Plain : Value → Json → Prop
  | boolean (b : Bool) : Plain (.boolean b) (.bool b)
  | enumeration (type name : String) : Plain (.enumeration type name) (.string name)
  | finite {x : Float} (isFinite : Binary.isFinite x = true) :
      Plain (.float x) (.number (.float x))
  | notFinite {x : Float} (isFinite : Binary.isFinite x = false) : Plain (.float x) .null
  | id (s : String) : Plain (.id s) (.string s)
  | int (n : Int64) : Plain (.int n) (.number (.int n.toInt))
  | list {items jsons} (below : PlainItems items jsons) : Plain (.list items) (.array jsons)
  | null : Plain .null .null
  | string (s : String) : Plain (.string s) (.string s)

/-- Plain forms one by one. -/
inductive PlainItems : List Value → List Json → Prop
  | nil : PlainItems [] []
  | cons {item json items jsons} (first : Plain item json) (rest : PlainItems items jsons) :
      PlainItems (item :: items) (json :: jsons)

end

mutual

theorem plain_toJson : ∀ value : Value, value.Plain value.toJson
  | .boolean b => .boolean b
  | .enumeration type name => .enumeration type name
  | .float x => by
    rw [toJson]
    split
    · rename_i hfinite
      exact .finite hfinite
    · rename_i hfinite
      exact .notFinite (Bool.eq_false_iff.mpr hfinite)
  | .id s => .id s
  | .int n => .int n
  | .list items => .list (plainItems_toItems items)
  | .null => .null
  | .string s => .string s

theorem plainItems_toItems : ∀ items : List Value, PlainItems items (toItems items)
  | [] => .nil
  | item :: rest => .cons (plain_toJson item) (plainItems_toItems rest)

end

mutual

/-- The floats inside a value. -/
def floats : Value → List Float
  | .float x => [x]
  | .list items => allFloats items
  | .boolean _ | .enumeration _ _ | .id _ | .int _ | .null | .string _ => []

def allFloats : List Value → List Float
  | [] => []
  | item :: rest => floats item ++ allFloats rest

end

mutual

/-- The floats that are sent are the finite ones. -/
theorem mem_floats_toJson : ∀ {value : Value} {x : Float}, x ∈ value.toJson.floats →
    Binary.isFinite x = true ∧ x ∈ value.floats
  | .float x, y, h => by
    rw [toJson] at h
    split at h
    · rename_i hfinite
      obtain rfl := List.mem_singleton.mp h
      exact ⟨hfinite, List.mem_cons_self⟩
    · cases h
  | .list items, x, h => mem_itemsFloats_toItems h
  | .boolean _, _, h | .enumeration _ _, _, h | .id _, _, h | .int _, _, h | .null, _, h
  | .string _, _, h => by cases h

theorem mem_itemsFloats_toItems : ∀ {items : List Value} {x : Float},
    x ∈ Json.itemsFloats (toItems items) → Binary.isFinite x = true ∧ x ∈ allFloats items
  | [], _, h => by cases h
  | item :: rest, x, h => by
    rw [toItems, Json.itemsFloats, List.mem_append] at h
    rcases h with h | h
    · exact (mem_floats_toJson h).imp_right (List.mem_append_left _)
    · exact (mem_itemsFloats_toItems h).imp_right (List.mem_append_right _)

end

end Value

namespace Query

open Json (ReadsBack Recovers)

/-- The values that a client brings along. -/
def Spec.values (spec : Spec) : List Value :=
  spec.arguments.toList.map Prod.snd ++
    (spec.includes.flatMap Include.calls).flatMap fun call => call.parameters.toList.map Prod.snd

namespace Operation

variable {float : Json.Literal → Float} {operation : Operation}

/-- The values of the variables as they are sent. -/
def sent (operation : Operation) : List (String × Json) :=
  operation.declared.toList.map fun v => (v.name, v.value.toJson)

theorem mem_entriesFloats {vs : List Variable} {x : Float}
    (h : x ∈ Json.entriesFloats (vs.map fun v => (v.name, v.value.toJson))) :
    Binary.isFinite x = true ∧ ∃ v ∈ vs, x ∈ v.value.floats := by
  induction vs with
  | nil => cases h
  | cons v rest ih =>
    rw [List.map_cons, Json.entriesFloats, List.mem_append] at h
    rcases h with h | h
    · obtain ⟨hfinite, hmem⟩ := Value.mem_floats_toJson h
      exact ⟨hfinite, v, List.mem_cons_self, hmem⟩
    · obtain ⟨hfinite, v, hv, hmem⟩ := ih h
      exact ⟨hfinite, v, List.mem_cons_of_mem _ hv, hmem⟩

theorem recovers_envelope
    (h : ∀ v ∈ operation.declared.toList, ∀ x ∈ v.value.floats, Binary.isFinite x = true →
      ReadsBack float x) : Recovers float operation.envelope.floats := by
  intro x hx
  simp only [envelope, Json.floats, Json.entriesFloats, List.nil_append, List.append_nil] at hx
  obtain ⟨hfinite, v, hv, hmem⟩ := mem_entriesFloats hx
  exact ⟨hfinite, h v hv x hmem hfinite⟩

end Operation

namespace Compiler

variable {compiler : Compiler}

theorem value_mem_of_compile {spec : Spec} {operation : Operation}
    (h : (compiler.compile spec).result = .ok operation) :
    ∀ v ∈ operation.declared.toList, v.value ∈ spec.values := by
  obtain ⟨added, hall, hparametric, -⟩ := declared_of_compile h
  intro v hv
  rw [hall, List.mem_append] at hv
  rw [Spec.values, List.mem_append]
  rcases hv with hv | hv
  · obtain ⟨argument, hargument, -, -, hvalue, -⟩ := mem_declarationsOf hv
    exact .inl (hvalue ▸ List.mem_map_of_mem hargument)
  · obtain ⟨call, hcall, parameter, hparameter, -, -, hvalue⟩ := (hparametric v hv).exists_parameter
    exact .inr (List.mem_flatMap.mpr ⟨call, hcall, hvalue ▸ List.mem_map_of_mem hparameter⟩)

/-- If the reader takes the text of every float of the client back to that float, the payload is
read as the document and the plain forms of the values, and it stands for nothing else. -/
theorem payload_denotes_of_compile {float : Json.Literal → Float} {spec : Spec}
    {operation : Operation} (h : (compiler.compile spec).result = .ok operation)
    (hfloats : ∀ value ∈ spec.values, ∀ x ∈ value.floats, Binary.isFinite x = true →
      ReadsBack float x) :
    ∃ entries : List (String × Json),
      (∀ json, Json.Grammar.Denotes float operation.payload json ↔
        json = .object [("query", .string operation.document), ("variables", .object entries)]) ∧
      Json.read? float operation.payload =
        some (.object [("query", .string operation.document), ("variables", .object entries)]) ∧
      operation.header = headerOf operation.definitions ∧
      entries.map Prod.fst = operation.definitions.map Prod.fst ∧
      Value.PlainItems (operation.variables.map Prod.snd) (entries.map Prod.snd) := by
  have hrecovers : Recovers float operation.envelope.floats :=
    Operation.recovers_envelope fun v hv => hfloats v.value (value_mem_of_compile h v hv)
  have hdenotes : Json.Grammar.Denotes float operation.payload operation.envelope :=
    Json.denotes_compact hrecovers
  refine ⟨operation.sent, fun json => ⟨fun hjson => hjson.unique hdenotes, ?_⟩,
    Json.Grammar.read?_eq_some_iff.mpr hdenotes, operation.header_eq_headerOf, ?_, ?_⟩
  · rintro rfl
    exact hdenotes
  · rw [Operation.sent, Operation.definitions, List.map_map, List.map_map]
    rfl
  · have hplain := Value.plainItems_toItems (operation.variables.map Prod.snd)
    rw [Value.toItems_eq_map, Operation.variables, List.map_map, List.map_map] at hplain
    rw [Operation.sent, Operation.variables, List.map_map, List.map_map]
    exact hplain

/-- The payload with a weight, for a reader that takes the one literal in it for what it is. -/
theorem payload_denotes_of_weights :
    ∃ operation entries, (Transit.compiler.compile Transit.weighted).result = .ok operation ∧
      Json.read? (fun _ => 1.5) operation.payload =
        some (.object [("query", .string operation.document), ("variables", .object entries)]) ∧
      entries.map Prod.fst = ["id", "weights"] ∧
      Value.PlainItems [.id "HSL:\"2550\"", .list [.float 1.5, .null]] (entries.map Prod.snd) := by
  have hfloats : ∀ value ∈ Transit.weighted.values, ∀ x ∈ value.floats,
      Binary.isFinite x = true → ReadsBack (fun _ => 1.5) x := by
    intro value hvalue x hx _ literal _
    have hall : ∀ value ∈ Transit.weighted.values, ∀ x ∈ value.floats, (1.5 : Float) = x := by
      simp [Transit.weighted, Spec.values, OrderedMap.insert, OrderedMap.empty, OrderedMap.write,
        Value.floats, Value.allFloats]
    exact hall value hvalue x hx
  have hcompile : (Transit.compiler.compile Transit.weighted).result = .ok _ := rfl
  obtain ⟨entries, -, hread, -, hnames, hplain⟩ := payload_denotes_of_compile hcompile hfloats
  exact ⟨_, entries, hcompile, hread, hnames, hplain⟩

end Compiler

end Query

end PathQuery
