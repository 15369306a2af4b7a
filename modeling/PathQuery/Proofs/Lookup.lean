import PathQuery.Proofs.Acceptance
import PathQuery.Proofs.Spellings
/-!
# Looking up a field

A segment addresses at most one field of a type, though two rules apply to it and the first field in
order of declaration is taken. The checks on a draft make the order irrelevant: local names
are distinct, and of two fields with one remote name, one has it as its local name, which wins.
-/

namespace PathQuery.Schema.ObjectType

variable {type : ObjectType}

theorem Built.isValid_name (h : type.Built) : Name.isValid type.name = true := by
  obtain ⟨draft, -, hbuild⟩ := h
  unfold Draft.build at hbuild
  split at hbuild
  · rename_i hname
    exact Except.ok.inj hbuild ▸ hname
  · contradiction

/-- A type with the same fields in another order is built by adding them in that order. -/
theorem Built.permuted (h : type.Built) {fields : List Field} (hperm : fields.Perm type.fields) :
    Built ⟨type.name, fields⟩ := by
  have hadded : Draft.addFields ⟨type.name, []⟩ fields = .ok ⟨type.name, fields⟩ := by
    refine Draft.addFields_eq_ok_iff.mpr ⟨fun field hfield => ?_, ?_, rfl⟩
    · exact h.wellNamed field (hperm.mem_iff.mp hfield)
    · exact (hperm.map Field.name).nodup_iff.mpr h.nodup_names
  exact ⟨_, Model.made_of_addFields (.start type.name) hadded, if_pos h.isValid_name⟩

theorem finds_permuted_iff {fields : List Field} (hperm : fields.Perm type.fields)
    {segment : String} {field : Field} :
    Finds ⟨type.name, fields⟩ segment field ↔ type.Finds segment field := by
  simp only [Finds, hperm.mem_iff]

/-- A segment addresses the field with that local name, or else the one with that remote name. There
is one such field at most, so each is found under its own name, and the order in which the fields
were declared does not matter. -/
theorem field?_unambiguous (h : type.Built) :
    (∀ segment field, type.field? segment = some field ↔ type.Finds segment field) ∧
    (∀ segment field other, type.Finds segment field → type.Finds segment other →
      field = other) ∧
    (∀ field ∈ type.fields, type.field? field.name = some field) ∧
    ∀ fields : List Field, fields.Perm type.fields → ∀ segment,
      field? ⟨type.name, fields⟩ segment = type.field? segment := by
  refine ⟨fun segment field => h.field?_eq_some_iff, fun segment field other => h.finds_unique,
    fun field hfield => h.field?_eq_some_iff.mpr ⟨hfield, .inl rfl⟩, ?_⟩
  intro fields hperm segment
  apply Option.ext
  intro field
  rw [(h.permuted hperm).field?_eq_some_iff, finds_permuted_iff hperm, h.field?_eq_some_iff]

end PathQuery.Schema.ObjectType

namespace PathQuery.Transit

open Schema

/-- A stop with two names that differ in their first letters only. -/
def stop : ObjectType :=
  ⟨"Stop", [⟨"Name", .scalar .string⟩, ⟨"name", .list (.object "Translation")⟩]⟩

/-- Either name leads to its own field, whichever of the fields is declared first. -/
theorem field?_unambiguous_of_stop :
    stop.Built ∧ stop.field? "name" = some ⟨"name", .list (.object "Translation")⟩ ∧
    ObjectType.field? ⟨"Stop", stop.fields.reverse⟩ "Name" = some ⟨"Name", .scalar .string⟩ := by
  have hadded : ObjectType.Draft.addFields ⟨"Stop", []⟩ stop.fields = .ok ⟨"Stop", stop.fields⟩ :=
    rfl
  have hbuilt : stop.Built := ⟨_, Model.made_of_addFields (.start "Stop") hadded, rfl⟩
  obtain ⟨-, -, hown, horder⟩ := ObjectType.field?_unambiguous hbuilt
  refine ⟨hbuilt, hown ⟨"name", .list (.object "Translation")⟩ (by simp [stop]), ?_⟩
  have hmoved : ObjectType.field? ⟨"Stop", stop.fields.reverse⟩ "Name" = stop.field? "Name" :=
    horder _ (List.reverse_perm _) "Name"
  rw [hmoved]
  exact hown ⟨"Name", .scalar .string⟩ (by simp [stop])

end PathQuery.Transit
