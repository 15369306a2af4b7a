import PathQuery.Proofs.Resolution
/-!
# The ways a path comes to a dead end

The other half of how a path resolves: one rule for each way in which following it ends with a
fault. A path fails exactly along a derivation (`follow_eq_error_iff`), so that what holds of every
fault is shown by induction over the rules. Which rule applies is decided from the front: an empty
segment is seen before its field is looked up, a trailing one already at the segment before it, and
the arguments of a field are bound before anything is said of what comes behind it.
-/

namespace PathQuery.Query.Compiler

open Schema (ObjectType)
open Selection (Binding Node)

variable {compiler : Compiler}

theorem wrap_eq_error_iff {field : Schema.Field} {arguments : List Binding} {children : List Node}
    {path : String} {child : ObjectType} {error : Error} :
    (compiler.wrap field arguments children path child).result = .error error ↔
      children = [] ∧ compiler.settings.emptySelection = .reject ∧
        error = .emptySelection path child.name := by
  cases children with
  | nil =>
    cases hpolicy : compiler.settings.emptySelection <;>
      simp [wrap, hpolicy, Except.bind, eq_comm]
  | cons first rest => simp [wrap]

theorem exists_undefinedType_of_target {element : Schema.TypeRef} {error : Error}
    (h : compiler.target element = .error error) : ∃ name, error = .undefinedType name := by
  unfold target at h
  split at h
  · exact ⟨_, (Except.error.inj h).symm⟩
  · split at h
    · exact ⟨_, (Except.error.inj h).symm⟩
    · contradiction

/-- The ways in which following the remaining segments of a path on a type ends with a fault. -/
inductive Fails (compiler : Compiler) (path : String) :
    List String → ObjectType → State → Error → Prop
  /-- The segment is empty, or an empty one is all that comes behind it. -/
  | emptySegment {segment rest type state} (empty : segment = "" ∨ rest = [""]) :
      Fails compiler path (segment :: rest) type state (.emptySegment path)
  | undefinedField {segment rest type state} (full : ¬(segment = "" ∨ rest = [""]))
      (field?_eq : type.field? segment = none) :
      Fails compiler path (segment :: rest) type state (.undefinedField path segment type.name)
  /-- The arguments of a field cannot be bound. -/
  | bind {segment rest type field state error} (step : Addresses type segment rest field)
      (fault : (compiler.bindField field state).result = .error error) :
      Fails compiler path (segment :: rest) type state error
  /-- The path goes on behind a leaf field. -/
  | pastLeaf {segment rest type field state bindings bound}
      (step : Addresses type segment rest field) (isLeaf : field.isLeaf = true)
      (bind : (compiler.bindField field state).result = .ok (bindings, bound))
      (rest_ne : rest ≠ []) :
      Fails compiler path (segment :: rest) type state
        (.pastLeaf path segment type.name (Path.join rest))
  /-- The type below a field is not there. -/
  | target {segment rest type field state bindings bound error}
      (step : Addresses type segment rest field) (isLeaf : field.isLeaf = false)
      (bind : (compiler.bindField field state).result = .ok (bindings, bound))
      (fault : compiler.target field.type.element = .error error) :
      Fails compiler path (segment :: rest) type state error
  /-- The rest of the path fails on the type below a field. -/
  | deeper {segment rest type field state bindings bound child error}
      (step : Addresses type segment rest field) (isLeaf : field.isLeaf = false)
      (bind : (compiler.bindField field state).result = .ok (bindings, bound))
      (target : compiler.target field.type.element = .ok child)
      (fails : Fails compiler path rest child bound error) :
      Fails compiler path (segment :: rest) type state error
  /-- Nothing is selected on the type below a field, and that is refused. -/
  | nothingBelow {segment rest type field state bindings bound child deeper}
      (step : Addresses type segment rest field) (isLeaf : field.isLeaf = false)
      (bind : (compiler.bindField field state).result = .ok (bindings, bound))
      (target : compiler.target field.type.element = .ok child)
      (follows : Follows compiler rest child bound [] deeper)
      (policy : compiler.settings.emptySelection = .reject) :
      Fails compiler path (segment :: rest) type state (.emptySelection path child.name)

theorem follow_of_empty {path segment : String} {rest : List String}
    (h : segment = "" ∨ rest = [""]) (type : ObjectType) (state : State) :
    (compiler.follow path (segment :: rest) type state).result = .error (.emptySegment path) := by
  have hempty : (segment.isEmpty || rest == [""]) = true := by simpa using h
  rw [follow, if_pos hempty]
  rfl

theorem follow_of_undefined {path segment : String} {rest : List String} {type : ObjectType}
    (h : ¬(segment = "" ∨ rest = [""])) (hfield : type.field? segment = none) (state : State) :
    (compiler.follow path (segment :: rest) type state).result =
      .error (.undefinedField path segment type.name) := by
  have hfull : ¬(segment.isEmpty || rest == [""]) = true := by simpa using h
  rw [follow, if_neg hfull, hfield]
  rfl

theorem follow_of_unbound {path segment : String} {rest : List String} {type : ObjectType}
    {field : Schema.Field} {state : State} {error : Error}
    (step : Addresses type segment rest field)
    (h : (compiler.bindField field state).result = .error error) :
    (compiler.follow path (segment :: rest) type state).result = .error error := by
  have hfull : ¬(segment.isEmpty || rest == [""]) = true := by
    simpa using And.intro step.segment_ne step.rest_ne
  rw [follow, if_neg hfull, step.field?_eq]
  exact Logged.result_bind_eq_error_iff.mpr (.inl h)

theorem fails_of_follow {path : String} {segments : List String} {type : ObjectType} {state : State}
    {error : Error} (h : (compiler.follow path segments type state).result = .error error) :
    Fails compiler path segments type state error := by
  induction segments generalizing type state with
  | nil => contradiction
  | cons segment rest ih =>
    by_cases hempty : segment = "" ∨ rest = [""]
    · rw [follow_of_empty hempty] at h
      obtain rfl := Except.error.inj h
      exact .emptySegment hempty
    · cases hfield : type.field? segment with
      | none =>
        rw [follow_of_undefined hempty hfield] at h
        obtain rfl := Except.error.inj h
        exact .undefinedField hempty hfield
      | some field =>
        have hstep : Addresses type segment rest field :=
          ⟨fun h => hempty (.inl h), fun h => hempty (.inr h), hfield⟩
        have hfull : ¬(segment.isEmpty || rest == [""]) = true := by simpa using hempty
        rw [follow, if_neg hfull, hfield] at h
        rcases Logged.result_bind_eq_error_iff.mp h with hbind | ⟨⟨bindings, bound⟩, hbind, h⟩
        · exact .bind hstep hbind
        rw [Logged.result_bind_of_ok (Logged.result_note _)] at h
        split at h
        · rename_i hleaf
          split at h
          · contradiction
          · rename_i hrest
            obtain rfl := Except.error.inj h
            exact .pastLeaf hstep hleaf hbind (by simpa using hrest)
        · rename_i hleaf
          have hleaf : field.isLeaf = false := Bool.not_eq_true _ ▸ hleaf
          rcases Logged.result_bind_eq_error_iff.mp h with htarget | ⟨child, htarget, h⟩
          · exact .target hstep hleaf hbind htarget
          rcases Logged.result_bind_eq_error_iff.mp h with hbelow | ⟨⟨children, deeper⟩, hbelow, h⟩
          · exact .deeper hstep hleaf hbind htarget (ih hbelow)
          rcases Logged.result_bind_eq_error_iff.mp h with hwrap | ⟨node?, -, h⟩
          · obtain ⟨rfl, hpolicy, rfl⟩ := wrap_eq_error_iff.mp hwrap
            exact .nothingBelow hstep hleaf hbind htarget (follows_of_follow hbelow) hpolicy
          · -- Once the field is wrapped, nothing can go wrong any more.
            cases node? <;> contradiction

theorem follow_of_fails {path : String} {segments : List String} {type : ObjectType} {state : State}
    {error : Error} (h : Fails compiler path segments type state error) :
    (compiler.follow path segments type state).result = .error error := by
  induction h with
  | emptySegment empty => exact follow_of_empty empty _ _
  | undefinedField full field?_eq => exact follow_of_undefined full field?_eq _
  | bind step fault => exact follow_of_unbound step fault
  | pastLeaf step isLeaf bind rest_ne =>
    rw [follow_cons step bind, if_pos isLeaf, if_neg (by simpa using rest_ne)]
  | target step isLeaf bind fault =>
    rw [follow_cons step bind, if_neg (by simp [isLeaf]), fault]
    rfl
  | deeper step isLeaf bind target fails ih =>
    rw [follow_cons step bind, if_neg (by simp [isLeaf]), target]
    simp only [Except.bind, ih]
  | nothingBelow step isLeaf bind target follows policy =>
    rw [follow_cons step bind, if_neg (by simp [isLeaf]), target]
    simp only [Except.bind, follow_of_follows follows]
    rw [wrap_eq_error_iff.mpr ⟨rfl, policy, rfl⟩]
    rfl

/-- A path ends with a fault exactly along the rules. -/
theorem follow_eq_error_iff {path : String} {segments : List String} {type : ObjectType}
    {state : State} {error : Error} :
    (compiler.follow path segments type state).result = .error error ↔
      Fails compiler path segments type state error :=
  ⟨fails_of_follow, follow_of_fails⟩

end PathQuery.Query.Compiler
