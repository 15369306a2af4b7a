import PathQuery.Proofs.BoundVariables
import PathQuery.Proofs.Naming
import PathQuery.Proofs.TypeNames
import PathQuery.Proofs.WellNamed
import PathQuery.Value.Json
/-!
# Which types a header can declare

A reference to a type is a name in any number of brackets. The types in the header of a query are
put together from the values of its variables, and brackets and the names of scalars are all that is
ever added. So where the standard names are in use, a type that is not a reference has got its text
from an enumeration value: what such a value says its type is goes into the header as it stands,
and nobody looks whether it is a name.
-/

namespace PathQuery

/-- A name inside brackets. -/
def bracketed (depth : Nat) (name : String) : String :=
  String.ofList (List.replicate depth '[') ++ name ++ String.ofList (List.replicate depth ']')

def IsTypeReference (text : String) : Prop :=
  ∃ depth name, Name.isValid name = true ∧ text = bracketed depth name

theorem bracketed_succ (depth : Nat) (name : String) :
    bracketed (depth + 1) name = "[" ++ bracketed depth name ++ "]" := by
  rw [← String.toList_inj]
  have hclosing : List.replicate (depth + 1) ']' = List.replicate depth ']' ++ [']'] :=
    List.replicate_succ'
  simp [bracketed, hclosing, List.replicate_succ]

theorem Grammar.TypeSyntax.exists_text_eq (type : TypeSyntax) :
    ∃ depth, type.text = bracketed depth type.name := by
  induction type with
  | named name => exact ⟨0, by simp [TypeSyntax.text, TypeSyntax.name, bracketed]⟩
  | list element ih =>
    obtain ⟨depth, hdepth⟩ := ih
    refine ⟨depth + 1, ?_⟩
    rw [TypeSyntax.text, hdepth]
    exact (bracketed_succ depth element.name).symm

/-- There is nothing in a reference but brackets and the characters of a name. -/
theorem IsTypeReference.forall_mem {text : String} (h : IsTypeReference text) :
    ∀ c ∈ text.toList, c = '[' ∨ c = ']' ∨ Name.isPart c = true := by
  obtain ⟨depth, name, hname, rfl⟩ := h
  obtain ⟨first, rest, rfl, hfirst, hrest⟩ := Name.exists_of_isValid hname
  intro c hc
  simp only [bracketed, String.toList_append, String.toList_ofList, List.mem_append,
    List.mem_replicate, List.mem_cons] at hc
  rcases hc with (⟨-, rfl⟩ | rfl | hmem) | ⟨-, rfl⟩
  · exact .inl rfl
  · exact .inr (.inr (by rw [Name.isPart, hfirst, Bool.true_or]))
  · exact .inr (.inr (List.all_eq_true.mp hrest c hmem))
  · exact .inr (.inl rfl)

namespace Query.Compiler

variable {compiler : Compiler}

/-- The header of a document declares each variable with its type, which is the standard name of a
scalar in brackets, or the type name of an enumeration value inside the variable's value. It is a
reference to a type if the latter are names. -/
theorem types_of_compile {spec : Spec} {operation : Operation}
    (hstandard : compiler.settings.scalarNames = .standard)
    (h : (compiler.compile spec).result = .ok operation) :
    operation.document = "query" ++
        headerOf (operation.declared.toList.map fun v => (v.name, v.type)) ++ " \x7b\n" ++
        operation.root.indented 1 ++ "\x7d" ∧
    ∀ v ∈ operation.declared.toList,
      (∃ depth name, v.type = bracketed depth name ∧
        ((∃ scalar : Scalar, name = scalar.name) ∨ name ∈ v.value.enumTypes)) ∧
      ((∀ type ∈ v.value.enumTypes, Name.isValid type = true) → IsTypeReference v.type) := by
  refine ⟨operation.document_eq, ?_⟩
  intro v hv
  have htype := typed_of_compile h v hv
  rw [hstandard] at htype
  obtain ⟨written, htext, hwritten⟩ := Value.names_of_typeName? htype
  obtain ⟨depth, hdepth⟩ := written.exists_text_eq
  have hbracketed : v.type = bracketed depth written.name := htext.symm.trans hdepth
  refine ⟨⟨depth, written.name, hbracketed, ?_⟩, fun henums => ?_⟩
  · rcases hwritten with henum | ⟨scalar, hscalar⟩
    · exact .inr henum
    · exact .inl ⟨scalar, by rw [hscalar, ScalarNames.get_standard]⟩
  · refine ⟨depth, written.name, ?_, hbracketed⟩
    rcases hwritten with henum | ⟨scalar, hscalar⟩
    · exact henums _ henum
    · rw [hscalar, ScalarNames.get_standard]
      cases scalar <;> decide

/-- The type of the modes is named by the value among them. -/
theorem types_of_route : Transit.compiler.settings.scalarNames = .standard ∧
    ∃ operation, (Transit.compiler.compile Transit.served).result = .ok operation ∧
      operation.header = " ($name: String, $modes: [Mode])" ∧
      ∀ v ∈ operation.declared.toList, IsTypeReference v.type := by
  have hcompile : (Transit.compiler.compile Transit.served).result = .ok _ := rfl
  obtain ⟨-, htypes⟩ := types_of_compile rfl hcompile
  have hnamed : ∀ v ∈ [(⟨"name", "String", .string "550"⟩ : Variable),
      ⟨"modes", "[Mode]", .list [.null, .enumeration "Mode" "BUS"]⟩],
      ∀ type ∈ v.value.enumTypes, Name.isValid type = true := by decide
  exact ⟨rfl, _, hcompile, by decide, fun v hv => (htypes v hv).2 (hnamed v hv)⟩

/-- A value read from JSON, in a query on a model that was accepted, declares what is no type. -/
theorem malformed_type_of_enumeration :
    Transit.registry.Built ∧ Transit.compiler.settings.scalarNames = .standard ∧
    ∃ value, Value.ofJson (.object [("enum", .string "no name"), ("value", .string "BUS")]) =
        .ok value ∧
      ∃ operation, (Transit.compiler.compile
          ⟨"Route", "Route", OrderedMap.empty.insert "mode" value, [], none⟩).result =
          .ok operation ∧
        operation.header = " ($mode: no name)" ∧
        ∃ v ∈ operation.declared.toList, ¬ IsTypeReference v.type := by
  refine ⟨Transit.built_registry, rfl, .enumeration "no name" "BUS", rfl, _, rfl, by decide,
    ⟨"mode", "no name", _⟩, List.mem_cons_self, fun hreference => ?_⟩
  have hblank := hreference.forall_mem ' ' (by decide)
  exact absurd hblank (by decide)

end Query.Compiler

end PathQuery
