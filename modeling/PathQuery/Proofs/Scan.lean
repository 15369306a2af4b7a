import PathQuery.Proofs.Pruning
import PathQuery.Proofs.References
import PathQuery.Proofs.Resolution
/-!
# The scan over relation calls

Which field takes which call, said without a cursor and without regard to what becomes of the field.
The fields that the segments of all paths lead to stand in one sequence, the calls of all includes
in another. The scan goes over the fields with a position among the calls; a field that is described
by the call at the position takes it, and the position moves on by one. From the fields and what
they were given follows what is selected: along each path every field stands above the next.
-/

namespace PathQuery

open Schema (Field ObjectType Registry TypeRef)
open Selection (Binding Head Node)

/-! ### Fields along a path -/

namespace Schema

/-- The type to select from below a field. -/
def Registry.below? (registry : Registry) (field : Field) : Option ObjectType :=
  field.type.objectName?.bind registry.object?

/-- The fields that the segments of a path lead to, from a type on. -/
def Registry.visited (registry : Registry) : List String → ObjectType → List Field
  | [], _ => []
  | segment :: rest, type =>
    match type.field? segment with
    | none => []
    | some field =>
      field :: match registry.below? field with
        | none => []
        | some child => visited registry rest child

theorem Registry.visited_of_leaf {registry : Registry} {segment : String} {rest : List String}
    {type : ObjectType} {field : Field} (hfield : type.field? segment = some field)
    (hbelow : registry.below? field = none) :
    registry.visited (segment :: rest) type = [field] := by
  simp only [visited, hfield, hbelow]

theorem Registry.visited_of_child {registry : Registry} {segment : String} {rest : List String}
    {type child : ObjectType} {field : Field} (hfield : type.field? segment = some field)
    (hbelow : registry.below? field = some child) :
    registry.visited (segment :: rest) type = field :: registry.visited rest child := by
  simp only [visited, hfield, hbelow]

theorem Registry.below?_of_isLeaf (registry : Registry) {field : Field} (h : field.isLeaf = true) :
    registry.below? field = none := by
  have hname : field.type.objectName? = none := TypeRef.objectName?_eq_none_iff.mpr h
  rw [below?, hname]
  rfl

end Schema

namespace Query

theorem Compiler.target_eq_ok_iff_below? {compiler : Compiler} {field : Field}
    {child : ObjectType} :
    compiler.target field.type.element = .ok child ↔
      compiler.registry.below? field = some child := by
  rw [target_eq_ok_iff, TypeRef.objectName?_element, Registry.below?, Option.bind_eq_some_iff]

/-! ### Positions among the calls -/

/-- The call at a position, if it describes the field: by one of its names and its declared type. -/
def taken? (calls : List RelationCall) (position : Nat) (field : Field) : Option RelationCall :=
  calls[position]?.filter fun call =>
    (call.name = field.name ∨ call.name = field.remoteName) ∧ call.returnType = field.type

/-- The position behind a field. -/
def step (calls : List RelationCall) (position : Nat) (field : Field) : Nat :=
  if (taken? calls position field).isSome then position + 1 else position

/-- The arguments a field gets: one for each parameter with a value, bound to the variable that has
the number of the call behind the parameter's name. -/
def given (calls : List RelationCall) (position : Nat) (field : Field) : List Binding :=
  match taken? calls position field with
  | none => []
  | some call =>
    (call.parameters.toList.filter (!·.2.isNull)).map fun parameter =>
      ⟨parameter.1, parameter.1 ++ toString (position + 1)⟩

/-- The position behind all fields. -/
def scan (calls : List RelationCall) : Nat → List Field → Nat
  | position, [] => position
  | position, field :: rest => scan calls (step calls position field) rest

/-- A field where a path leads through it, with the arguments it got there. -/
structure Occurrence where
  field : Field
  arguments : List Binding

def occurrences (calls : List RelationCall) : Nat → List Field → List Occurrence
  | _, [] => []
  | position, field :: rest =>
    ⟨field, given calls position field⟩ :: occurrences calls (step calls position field) rest

theorem taken?_of_some {calls : List RelationCall} {position : Nat} {call : RelationCall}
    (h : calls[position]? = some call) (field : Field) :
    taken? calls position field = if call.fits field then some call else none := by
  have hfits : call.fits field = true ↔
      (call.name = field.name ∨ call.name = field.remoteName) ∧ call.returnType = field.type := by
    simp only [RelationCall.fits, Field.isNamed, Bool.and_eq_true, Bool.or_eq_true, beq_iff_eq,
      @eq_comm _ _ call.name]
  simp only [taken?, h, Option.filter_some, decide_eq_true_eq, hfits]

theorem taken?_of_none {calls : List RelationCall} {position : Nat}
    (h : calls[position]? = none) (field : Field) : taken? calls position field = none := by
  rw [taken?, h]
  rfl

theorem scan_append (calls : List RelationCall) (position : Nat) (fields others : List Field) :
    scan calls position (fields ++ others) = scan calls (scan calls position fields) others := by
  induction fields generalizing position with
  | nil => rfl
  | cons field rest ih => exact ih (step calls position field)

theorem occurrences_append (calls : List RelationCall) (position : Nat)
    (fields others : List Field) :
    occurrences calls position (fields ++ others) =
      occurrences calls position fields ++
        occurrences calls (scan calls position fields) others := by
  induction fields generalizing position with
  | nil => rfl
  | cons field rest ih =>
    rw [List.cons_append, occurrences, ih (step calls position field)]
    rfl

@[simp] theorem map_field_occurrences (calls : List RelationCall) (position : Nat)
    (fields : List Field) : (occurrences calls position fields).map Occurrence.field = fields := by
  induction fields generalizing position with
  | nil => rfl
  | cons field rest ih => rw [occurrences, List.map_cons, ih (step calls position field)]

/-- Each field gets what the scan of the fields in front of it leaves it. -/
theorem getElem?_occurrences (calls : List RelationCall) (position index : Nat)
    (fields : List Field) :
    (occurrences calls position fields)[index]? =
      fields[index]?.map fun field =>
        ⟨field, given calls (scan calls position (fields.take index)) field⟩ := by
  induction fields generalizing position index with
  | nil => rfl
  | cons field rest ih =>
    cases index with
    | zero => rfl
    | succ index =>
      rw [occurrences, List.getElem?_cons_succ, ih (step calls position field) index]
      rfl

/-! ### How far a scan gets -/

theorem le_step (calls : List RelationCall) (position : Nat) (field : Field) :
    position ≤ step calls position field := by
  unfold step
  split <;> omega

theorem step_le_succ (calls : List RelationCall) (position : Nat) (field : Field) :
    step calls position field ≤ position + 1 := by
  unfold step
  split <;> omega

theorem step_le_length {calls : List RelationCall} {position : Nat} (h : position ≤ calls.length)
    (field : Field) : step calls position field ≤ calls.length := by
  cases hcall : calls[position]? with
  | none =>
    rw [step, taken?_of_none hcall]
    exact h
  | some call =>
    have hlt := (List.getElem?_eq_some_iff.mp hcall).1
    exact Nat.le_trans (step_le_succ calls position field) hlt

theorem le_scan (calls : List RelationCall) (position : Nat) (fields : List Field) :
    position ≤ scan calls position fields := by
  induction fields generalizing position with
  | nil => exact Nat.le_refl position
  | cons field rest ih => exact Nat.le_trans (le_step calls position field) (ih _)

/-- No field takes more than one call. -/
theorem scan_le_add (calls : List RelationCall) (position : Nat) (fields : List Field) :
    scan calls position fields ≤ position + fields.length := by
  induction fields generalizing position with
  | nil => exact Nat.le_refl position
  | cons field rest ih =>
    have hrest : scan calls position (field :: rest) ≤ step calls position field + rest.length :=
      ih (step calls position field)
    have hstep := step_le_succ calls position field
    rw [List.length_cons]
    omega

theorem scan_le_length {calls : List RelationCall} {position : Nat} (h : position ≤ calls.length)
    (fields : List Field) : scan calls position fields ≤ calls.length := by
  induction fields generalizing position with
  | nil => exact h
  | cons field rest ih => exact ih (step_le_length h field)

/-! ### The cursor at a position -/

namespace Cursor

/-- The cursor in front of the call at a position. -/
def before (calls : List RelationCall) (position : Nat) : Cursor :=
  ⟨position, calls.drop position⟩

theorem before_zero (includes : List Include) :
    before (includes.flatMap Include.calls) 0 = ofIncludes includes := rfl

theorem before_of_none {calls : List RelationCall} {position : Nat}
    (h : calls[position]? = none) : before calls position = ⟨position, []⟩ := by
  rw [before, List.drop_eq_nil_of_le (List.getElem?_eq_none_iff.mp h)]

theorem before_of_some {calls : List RelationCall} {position : Nat} {call : RelationCall}
    (h : calls[position]? = some call) :
    before calls position = ⟨position, call :: calls.drop (position + 1)⟩ := by
  obtain ⟨hlt, rfl⟩ := List.getElem?_eq_some_iff.mp h
  rw [before, List.drop_eq_getElem_cons hlt]

theorem pass_before (calls : List RelationCall) (position : Nat) (field : Field) :
    (before calls position).pass field = before calls (step calls position field) := by
  cases hcall : calls[position]? with
  | none =>
    have hstep : step calls position field = position := by
      rw [step, taken?_of_none hcall]
      rfl
    rw [hstep, before_of_none hcall]
    rfl
  | some call =>
    rw [step, taken?_of_some hcall, before_of_some hcall]
    by_cases hfits : call.fits field = true
    · simp only [pass, hfits, if_true, advance, Option.isSome_some]
      rfl
    · simp only [pass, hfits, Bool.false_eq_true, if_false, Option.isSome_none]
      exact (before_of_some hcall).symm

theorem arguments_before (calls : List RelationCall) (position : Nat) (field : Field) :
    (before calls position).arguments field = given calls position field := by
  cases hcall : calls[position]? with
  | none =>
    rw [given, taken?_of_none hcall, before_of_none hcall]
    rfl
  | some call =>
    rw [given, taken?_of_some hcall, before_of_some hcall, arguments]
    by_cases hfits : call.fits field = true
    · simp only [parameters, pass, hfits, if_true, advance]
      rfl
    · simp only [parameters, hfits, Bool.false_eq_true, if_false, bindingsOf_nil]

end Cursor

/-! ### What is selected -/

namespace EmptySelection

/-- What becomes of selections in which selection sets may be empty. -/
def settle (policy : EmptySelection) (nodes : List Node) : List Node :=
  if policy = .omit then Node.prune nodes else nodes

theorem settle_leavesOf (policy : EmptySelection) (type : ObjectType) :
    policy.settle (Node.leavesOf type) = Node.leavesOf type := by
  unfold settle
  split
  · exact Node.prune_leavesOf type
  · rfl

theorem settle_leaf (policy : EmptySelection) (head : Head) :
    policy.settle [.leaf head] = [.leaf head] := by
  unfold settle
  split <;> rfl

/-- A field is kept above what is left of the nodes below it. -/
theorem settle_branch {policy : EmptySelection} {head : Head} {children : List Node}
    (h : policy.settle children ≠ [] ∨ policy = .render) :
    policy.settle [.branch head children] = [.branch head (policy.settle children)] := by
  unfold settle at h ⊢
  split
  · rename_i homit
    rw [if_pos homit] at h
    have hne := h.resolve_right (by simp [homit])
    rw [Node.prune_singleton, Node.pruned?_branch_of_ne hne]
    rfl
  · rfl

/-- A field is left out if nothing is left below it. -/
theorem settle_branch_of_nil {policy : EmptySelection} {head : Head}
    {children : List Node} (homit : policy = .omit) (h : policy.settle children = []) :
    policy.settle [.branch head children] = [] := by
  rw [settle, if_pos homit] at h ⊢
  rw [Node.prune_singleton, Node.pruned?_branch_of_nil h]
  rfl

end EmptySelection

namespace Occurrence

def head (occurrence : Occurrence) : Head :=
  ⟨occurrence.field.remoteName, none, occurrence.arguments⟩

/-- The nodes of the fields along a path: each above the next, and the leaf fields of the type that
is reached at its end. -/
def nodes (registry : Registry) : List Occurrence → ObjectType → List Node
  | [], type => Node.leavesOf type
  | occurrence :: rest, _ =>
    match registry.below? occurrence.field with
    | none => [.leaf occurrence.head]
    | some child => [.branch occurrence.head (nodes registry rest child)]

end Occurrence

end Query

end PathQuery
