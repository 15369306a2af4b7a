import PathQuery.Proofs.Grammar
import PathQuery.Value.Typing
/-!
# The types of values as they are written

The type a value is declared with is a text, put together while the value is gone through. It is the
text of a type in the sense of the grammar: a name in as many brackets as there are lists around it.
The name is a scalar's or that of an enumeration inside the value.
-/

namespace PathQuery

/-- The name inside all brackets. -/
def Grammar.TypeSyntax.name : TypeSyntax → String
  | named name => name
  | list element => element.name

namespace Value

open Grammar (TypeSyntax)

mutual

/-- The types of the enumeration values inside a value. -/
def enumTypes : Value → List String
  | .enumeration type _ => [type]
  | .list items => allEnumTypes items
  | .boolean _ | .float _ | .id _ | .int _ | .null | .string _ => []

def allEnumTypes : List Value → List String
  | [] => []
  | item :: rest => enumTypes item ++ allEnumTypes rest

end

theorem mem_of_common? {types : List (Option String)} {type : String}
    (h : common? types = some type) : some type ∈ types := by
  unfold common? at h
  split at h
  · split at h
    · exact Option.some.inj h ▸ List.mem_cons_self
    · contradiction
  · contradiction

/-- A type as a value with the given enumeration types may be declared with. -/
def Names (names : ScalarNames) (enums : List String) (type : String) : Prop :=
  ∃ written : TypeSyntax, written.text = type ∧
    (written.name ∈ enums ∨ ∃ scalar, written.name = names.get scalar)

theorem Names.mono {names : ScalarNames} {enums others : List String} {type : String}
    (h : Names names enums type) (hsubset : enums ⊆ others) : Names names others type := by
  obtain ⟨written, htext, hname | hscalar⟩ := h
  · exact ⟨written, htext, .inl (hsubset hname)⟩
  · exact ⟨written, htext, .inr hscalar⟩

variable {names : ScalarNames}

mutual

theorem names_of_typeName? : ∀ {value : Value} {type : String},
    value.typeName? names = some type → Names names value.enumTypes type
  | .enumeration enum _, type, h => by
    obtain rfl := Option.some.inj h
    exact ⟨.named enum, rfl, .inl (by simp [enumTypes, TypeSyntax.name])⟩
  | .list items, type, h => by
    obtain ⟨element, hcommon, rfl⟩ := Option.map_eq_some_iff.mp h
    obtain ⟨written, rfl, hname⟩ := names_of_elementTypes (mem_of_common? hcommon)
    exact ⟨.list written, rfl, hname⟩
  | .null, type, h => by contradiction
  | .boolean _, type, h => ⟨.named type, rfl, .inr ⟨.boolean, (Option.some.inj h).symm⟩⟩
  | .float _, type, h => ⟨.named type, rfl, .inr ⟨.float, (Option.some.inj h).symm⟩⟩
  | .id _, type, h => ⟨.named type, rfl, .inr ⟨.id, (Option.some.inj h).symm⟩⟩
  | .int _, type, h => ⟨.named type, rfl, .inr ⟨.int, (Option.some.inj h).symm⟩⟩
  | .string _, type, h => ⟨.named type, rfl, .inr ⟨.string, (Option.some.inj h).symm⟩⟩

theorem names_of_elementTypes : ∀ {items : List Value} {type : String},
    some type ∈ elementTypes names items → Names names (allEnumTypes items) type
  | [], type, h => by contradiction
  | item :: rest, type, h => by
    rw [elementTypes] at h
    rw [allEnumTypes]
    split at h
    · exact (names_of_elementTypes h).mono (List.subset_append_right _ _)
    · rcases List.mem_cons.mp h with h | h
      · exact (names_of_typeName? h.symm).mono (List.subset_append_left _ _)
      · exact (names_of_elementTypes h).mono (List.subset_append_right _ _)

end

end Value

end PathQuery
