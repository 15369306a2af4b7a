import PathQuery.Proofs.Declaration
import PathQuery.Query.IncludePath
import PathQuery.Query.Projection
/-!
# The ways a path resolves

The ways in which an include's path or a selector's chain can be followed to its end, as two
inductive relations with one rule for each way. A path is followed successfully exactly along a
derivation (`follow_eq_ok_iff`, `descend_eq_ok_iff`), so that what holds of every resolution is
shown by induction over the rules and nobody unfolds the resolution itself. The relations leave out
the text of the path, which matters to reports only.
-/

namespace PathQuery.Query

open Schema (Field ObjectType)
open Selection (Binding Head Node)

/-! ### One field and the cursor -/

namespace Cursor

/-- The cursor behind a field: past the next call if the field fits it. -/
def pass (cursor : Cursor) (field : Field) : Cursor :=
  match cursor.pending with
  | [] => cursor
  | call :: _ => if call.fits field then cursor.advance else cursor

/-- The parameters of the call that a field consumes. -/
def parameters (cursor : Cursor) (field : Field) : List (String × Value) :=
  match cursor.pending with
  | [] => []
  | call :: _ => if call.fits field then call.parameters.toList else []

/-- The arguments a field gets. -/
def arguments (cursor : Cursor) (field : Field) : List Binding :=
  bindingsOf (positioned (cursor.pass field).consumed) (cursor.parameters field)

/-- The variables that are declared for the arguments of a field. -/
def declarations (names : ScalarNames) (cursor : Cursor) (field : Field) : List Variable :=
  declarationsOf names (positioned (cursor.pass field).consumed) (cursor.parameters field)

theorem pending_pass_suffix (cursor : Cursor) (field : Field) :
    (cursor.pass field).pending <:+ cursor.pending := by
  obtain ⟨consumed, _ | ⟨call, rest⟩⟩ := cursor
  · exact List.suffix_rfl
  · simp only [pass]
    split
    · exact List.suffix_cons call rest
    · exact List.suffix_rfl

theorem mem_parameters {cursor : Cursor} {field : Field} {parameter : String × Value}
    (h : parameter ∈ cursor.parameters field) :
    ∃ call ∈ cursor.pending, parameter ∈ call.parameters.toList := by
  obtain ⟨consumed, _ | ⟨call, rest⟩⟩ := cursor
  · simp [parameters] at h
  · simp only [parameters] at h
    split at h
    · exact ⟨call, List.mem_cons_self, h⟩
    · simp at h

end Cursor

namespace Compiler

variable {compiler : Compiler}

theorem bindField_eq_ok_iff {field : Field} {state bound : State} {bindings : List Binding} :
    (compiler.bindField field state).result = .ok (bindings, bound) ↔
      (∀ parameter ∈ state.cursor.parameters field,
          Admissible compiler.settings.scalarNames parameter) ∧
        bindings = state.cursor.arguments field ∧
        bound.cursor = state.cursor.pass field ∧
        bound.declared.toList =
          state.declared.toList ++
            state.cursor.declarations compiler.settings.scalarNames field := by
  obtain ⟨⟨consumed, pending⟩, declared⟩ := state
  obtain ⟨cursor, after⟩ := bound
  have hpassed : ∀ c : Cursor,
      ([], State.mk c declared) = (bindings, State.mk cursor after) ↔
        bindings = [] ∧ cursor = c ∧ after.toList = declared.toList := by
    intro c
    rw [Prod.mk.injEq, State.mk.injEq, ← Variables.ext_iff, eq_comm, @eq_comm _ c,
      @eq_comm _ declared]
  cases pending with
  | nil =>
    simp [bindField, Cursor.peek?, Cursor.parameters, Cursor.arguments, Cursor.declarations,
      Cursor.pass, hpassed]
  | cons call rest =>
    by_cases hfits : call.fits field = true
    · simp only [bindField, Cursor.peek?, List.head?_cons, hfits, if_true, Cursor.parameters,
        Cursor.arguments, Cursor.declarations, Cursor.pass, Logged.result_bind_eq_ok_iff,
        Logged.result_note, Except.ok.injEq, true_and, exists_const, Prod.exists,
        Logged.result_pure, bindArguments_eq_ok_iff, Prod.mk.injEq, State.mk.injEq]
      constructor
      · rintro ⟨_, _, ⟨hadmissible, rfl, hafter⟩, rfl, rfl, rfl⟩
        exact ⟨hadmissible, rfl, rfl, hafter⟩
      · rintro ⟨hadmissible, rfl, rfl, hafter⟩
        exact ⟨_, _, ⟨hadmissible, rfl, hafter⟩, rfl, rfl, rfl⟩
    · simp [bindField, Cursor.peek?, Cursor.parameters, Cursor.arguments, Cursor.declarations,
        Cursor.pass, hfits, hpassed]

theorem wrap_eq_ok_iff {field : Field} {arguments : List Binding} {children : List Node}
    {path : String} {child : ObjectType} {node? : Option Node} :
    (compiler.wrap field arguments children path child).result = .ok node? ↔
      (children ≠ [] ∨ compiler.settings.emptySelection = .render) ∧
          node? = some (.branch ⟨field.remoteName, none, arguments⟩ children) ∨
        children = [] ∧ compiler.settings.emptySelection = .omit ∧ node? = none := by
  cases children with
  | nil =>
    cases hpolicy : compiler.settings.emptySelection <;>
      simp [wrap, hpolicy, Except.bind, eq_comm]
  | cons first rest => simp [wrap, eq_comm]

theorem target_eq_ok_iff {element : Schema.TypeRef} {type : ObjectType} :
    compiler.target element = .ok type ↔
      ∃ name, element.objectName? = some name ∧ compiler.registry.object? name = some type := by
  unfold target
  cases element.objectName? with
  | none => simp
  | some name => cases hobject : compiler.registry.object? name <;> simp [hobject]

@[simp] theorem result_dropBeyond (size : Nat) (state : State) :
    (dropBeyond size state).result = .ok ⟨state.cursor, state.declared.take size⟩ := by
  simp [dropBeyond, Except.bind]

/-! ### Paths of includes -/

/-- `segment` addresses `field` on `type`, and neither the segment nor the rest of the path is
empty text. -/
structure Addresses (type : ObjectType) (segment : String) (rest : List String)
    (field : Field) : Prop where
  segment_ne : segment ≠ ""
  rest_ne : rest ≠ [""]
  field?_eq : type.field? segment = some field

/-- The ways in which the remaining segments of a path select nodes on a type. -/
inductive Follows (compiler : Compiler) :
    List String → ObjectType → State → List Node → State → Prop
  /-- At the end of the path the leaf fields are selected. -/
  | stop {type state} : Follows compiler [] type state (Node.leavesOf type) state
  /-- A leaf field ends the path. -/
  | leaf {segment type field state bindings bound}
      (step : Addresses type segment [] field) (isLeaf : field.isLeaf = true)
      (bind : (compiler.bindField field state).result = .ok (bindings, bound)) :
      Follows compiler [segment] type state [.leaf ⟨field.remoteName, none, bindings⟩] bound
  /-- A field of an object type is put above what is selected on that type. -/
  | branch {segment rest type field state bindings bound child children deeper}
      (step : Addresses type segment rest field) (isLeaf : field.isLeaf = false)
      (bind : (compiler.bindField field state).result = .ok (bindings, bound))
      (target : compiler.target field.type.element = .ok child)
      (below : Follows compiler rest child bound children deeper)
      (keep : children ≠ [] ∨ compiler.settings.emptySelection = .render) :
      Follows compiler (segment :: rest) type state
        [.branch ⟨field.remoteName, none, bindings⟩ children] deeper
  /-- A field of an object type on which nothing is selected is left out, and the variables
  declared since are dropped. -/
  | omitted {segment rest type field state bindings bound child deeper}
      (step : Addresses type segment rest field) (isLeaf : field.isLeaf = false)
      (bind : (compiler.bindField field state).result = .ok (bindings, bound))
      (target : compiler.target field.type.element = .ok child)
      (below : Follows compiler rest child bound [] deeper)
      (policy : compiler.settings.emptySelection = .omit) :
      Follows compiler (segment :: rest) type state []
        ⟨deeper.cursor, deeper.declared.take state.declared.size⟩

theorem follows_of_follow {path : String} {segments : List String} {type : ObjectType}
    {state after : State} {nodes : List Node}
    (h : (compiler.follow path segments type state).result = .ok (nodes, after)) :
    Follows compiler segments type state nodes after := by
  induction segments generalizing type state after nodes with
  | nil =>
    simp only [follow, Logged.result_pure, Except.ok.injEq, Prod.mk.injEq] at h
    obtain ⟨rfl, rfl⟩ := h
    exact .stop
  | cons segment rest ih =>
    unfold follow at h
    split at h
    · simp at h
    · rename_i hempty
      cases hfield : type.field? segment with
      | none => simp [hfield] at h
      | some field =>
        have hstep : Addresses type segment rest field := by
          simp only [Bool.or_eq_true, String.isEmpty_iff, beq_iff_eq, not_or] at hempty
          exact ⟨hempty.1, hempty.2, hfield⟩
        simp only [hfield, Logged.result_bind_eq_ok_iff, Prod.exists, Logged.result_note,
          exists_const, true_and] at h
        obtain ⟨bindings, bound, hbind, h⟩ := h
        split at h
        · rename_i hleaf
          split at h
          · rename_i hlast
            obtain rfl : rest = [] := List.isEmpty_iff.mp hlast
            simp only [Logged.result_pure, Except.ok.injEq, Prod.mk.injEq] at h
            obtain ⟨rfl, rfl⟩ := h
            exact .leaf hstep hleaf hbind
          · simp at h
        · rename_i hleaf
          have hleaf : field.isLeaf = false := Bool.not_eq_true _ ▸ hleaf
          simp only [Logged.result_bind_eq_ok_iff, Logged.result_ofExcept, Prod.exists,
            wrap_eq_ok_iff] at h
          obtain ⟨child, htarget, children, deeper, hbelow, node?, hwrap, h⟩ := h
          rcases hwrap with ⟨hkeep, rfl⟩ | ⟨rfl, hpolicy, rfl⟩
          · simp only [Logged.result_pure, Except.ok.injEq, Prod.mk.injEq] at h
            obtain ⟨rfl, rfl⟩ := h
            exact .branch hstep hleaf hbind htarget (ih hbelow) hkeep
          · simp only [Logged.result_bind, result_dropBeyond, Except.bind, Logged.result_pure,
              Except.ok.injEq, Prod.mk.injEq] at h
            obtain ⟨rfl, rfl⟩ := h
            exact .omitted hstep hleaf hbind htarget (ih hbelow) hpolicy

theorem follow_cons {path segment : String} {rest : List String} {type : ObjectType}
    {field : Field} {state bound : State} {bindings : List Binding}
    (step : Addresses type segment rest field)
    (bind : (compiler.bindField field state).result = .ok (bindings, bound)) :
    (compiler.follow path (segment :: rest) type state).result =
      if field.isLeaf then
        if rest.isEmpty then .ok ([.leaf ⟨field.remoteName, none, bindings⟩], bound)
        else .error (.pastLeaf path segment type.name (Path.join rest))
      else (compiler.target field.type.element).bind fun child =>
        (compiler.follow path rest child bound).result.bind fun below =>
          (compiler.wrap field bindings below.1 path child).result.map fun
            | some node => ([node], below.2)
            | none => ([], ⟨below.2.cursor, below.2.declared.take state.declared.size⟩) := by
  obtain ⟨hsegment, hrest, hfield⟩ := step
  have hempty : (segment.isEmpty || rest == [""]) = false := by
    simp only [Bool.or_eq_false_iff, beq_eq_false_iff_ne, ne_eq]
    exact ⟨by simpa using hsegment, hrest⟩
  rw [follow, hempty]
  simp only [Bool.false_eq_true, if_false, hfield]
  rw [Logged.result_bind_of_ok bind, Logged.result_bind_of_ok (Logged.result_note _)]
  split
  · split <;> rfl
  · rw [Logged.result_bind, Logged.result_ofExcept]
    congr 1
    funext child
    rw [Logged.result_bind]
    congr 1
    funext below
    rw [Logged.result_bind]
    rcases (compiler.wrap field bindings below.1 path child).result with error | _ | node <;> rfl

theorem follow_of_follows {path : String} {segments : List String} {type : ObjectType}
    {state after : State} {nodes : List Node}
    (h : Follows compiler segments type state nodes after) :
    (compiler.follow path segments type state).result = .ok (nodes, after) := by
  induction h with
  | stop => rfl
  | leaf step isLeaf bind =>
    rw [follow_cons step bind, if_pos isLeaf]
    rfl
  | branch step isLeaf bind target below keep ih =>
    rw [follow_cons step bind, if_neg (by simp [isLeaf]), target]
    simp only [Except.bind, ih]
    rw [wrap_eq_ok_iff.mpr (.inl ⟨keep, rfl⟩)]
    rfl
  | omitted step isLeaf bind target below policy ih =>
    rw [follow_cons step bind, if_neg (by simp [isLeaf]), target]
    simp only [Except.bind, ih]
    rw [wrap_eq_ok_iff.mpr (.inr ⟨rfl, policy, rfl⟩)]
    rfl

/-- A path is followed to its end exactly along the rules. -/
theorem follow_eq_ok_iff {path : String} {segments : List String} {type : ObjectType}
    {state after : State} {nodes : List Node} :
    (compiler.follow path segments type state).result = .ok (nodes, after) ↔
      Follows compiler segments type state nodes after :=
  ⟨follows_of_follow, follow_of_follows⟩

/-! ### Chains of selectors -/

/-- The ways in which the steps of a chain select a node, or none, on a type. -/
inductive Descends (compiler : Compiler) : List String → ObjectType → Option Node → Prop
  | stop {type} : Descends compiler [] type none
  /-- A leaf field ends the chain. -/
  | leaf {step type field} (field?_eq : type.field? step = some field)
      (isLeaf : field.isLeaf = true) :
      Descends compiler [step] type (some (.leaf ⟨field.remoteName, none, []⟩))
  /-- A field of an object type at the end of the chain is put above its leaf fields. -/
  | last {step type field child} (field?_eq : type.field? step = some field)
      (isLeaf : field.isLeaf = false) (target : compiler.target field.type.element = .ok child)
      (keep : Node.leavesOf child ≠ [] ∨ compiler.settings.emptySelection = .render) :
      Descends compiler [step] type
        (some (.branch ⟨field.remoteName, none, []⟩ (Node.leavesOf child)))
  /-- It is left out if there are none. -/
  | omitted {step type field child} (field?_eq : type.field? step = some field)
      (isLeaf : field.isLeaf = false) (target : compiler.target field.type.element = .ok child)
      (none_below : Node.leavesOf child = [])
      (policy : compiler.settings.emptySelection = .omit) :
      Descends compiler [step] type none
  /-- Any other field is put above what the rest of the chain selects. -/
  | outer {step rest type field child inner?} (field?_eq : type.field? step = some field)
      (isLeaf : field.isLeaf = false) (target : compiler.target field.type.element = .ok child)
      (rest_ne : rest ≠ []) (below : Descends compiler rest child inner?) :
      Descends compiler (step :: rest) type
        (inner?.map fun inner => .branch ⟨field.remoteName, none, []⟩ [inner])

theorem descend_cons {path step : String} {rest : List String} {type : ObjectType} {field : Field}
    (field?_eq : type.field? step = some field) :
    (compiler.descend path (step :: rest) type).result =
      if field.isLeaf then
        if rest.isEmpty then .ok (some (.leaf ⟨field.remoteName, none, []⟩))
        else .error (.pastLeaf path step type.name (Path.join rest))
      else (compiler.target field.type.element).bind fun child =>
        if rest.isEmpty then (compiler.wrap field [] (Node.leavesOf child) path child).result
        else (compiler.descend path rest child).result.map fun inner? =>
          inner?.map fun inner => .branch ⟨field.remoteName, none, []⟩ [inner] := by
  rw [descend, field?_eq]
  simp only
  split
  · split <;> rfl
  · rw [Logged.result_bind, Logged.result_ofExcept]
    congr 1
    funext child
    split
    · rfl
    · rw [Logged.result_bind]
      cases (compiler.descend path rest child).result <;> rfl

theorem descends_of_descend {path : String} {steps : List String} {type : ObjectType}
    {node? : Option Node} (h : (compiler.descend path steps type).result = .ok node?) :
    Descends compiler steps type node? := by
  induction steps generalizing type node? with
  | nil =>
    obtain rfl : none = node? := by simpa [descend] using h
    exact .stop
  | cons step rest ih =>
    cases hfield : type.field? step with
    | none => simp [descend, hfield] at h
    | some field =>
      rw [descend_cons hfield] at h
      split at h
      · rename_i hleaf
        split at h
        · rename_i hlast
          obtain rfl : rest = [] := List.isEmpty_iff.mp hlast
          obtain rfl := Except.ok.inj h
          exact .leaf hfield hleaf
        · simp at h
      · rename_i hleaf
        have hleaf : field.isLeaf = false := Bool.not_eq_true _ ▸ hleaf
        cases htarget : compiler.target field.type.element with
        | error => simp [htarget, Except.bind] at h
        | ok child =>
          simp only [htarget, Except.bind] at h
          split at h
          · rename_i hlast
            obtain rfl : rest = [] := List.isEmpty_iff.mp hlast
            rcases wrap_eq_ok_iff.mp h with ⟨hkeep, rfl⟩ | ⟨hnone, hpolicy, rfl⟩
            · exact .last hfield hleaf htarget hkeep
            · exact .omitted hfield hleaf htarget hnone hpolicy
          · rename_i hlast
            cases hbelow : (compiler.descend path rest child).result with
            | error => simp [hbelow, Except.map] at h
            | ok inner? =>
              simp only [hbelow, Except.map, Except.ok.injEq] at h
              subst h
              exact .outer hfield hleaf htarget (by simpa using hlast) (ih hbelow)

theorem descend_of_descends {path : String} {steps : List String} {type : ObjectType}
    {node? : Option Node} (h : Descends compiler steps type node?) :
    (compiler.descend path steps type).result = .ok node? := by
  induction h with
  | stop => rfl
  | leaf field?_eq isLeaf =>
    rw [descend_cons field?_eq, if_pos isLeaf]
    rfl
  | last field?_eq isLeaf target keep =>
    rw [descend_cons field?_eq, if_neg (by simp [isLeaf]), target]
    exact wrap_eq_ok_iff.mpr (.inl ⟨keep, rfl⟩)
  | omitted field?_eq isLeaf target none_below policy =>
    rw [descend_cons field?_eq, if_neg (by simp [isLeaf]), target]
    exact wrap_eq_ok_iff.mpr (.inr ⟨none_below, policy, rfl⟩)
  | outer field?_eq isLeaf target rest_ne below ih =>
    rw [descend_cons field?_eq, if_neg (by simp [isLeaf]), target]
    simp only [Except.bind, ih, List.isEmpty_iff, if_neg rest_ne]
    rfl

/-- A chain is followed to its end exactly along the rules. -/
theorem descend_eq_ok_iff {path : String} {steps : List String} {type : ObjectType}
    {node? : Option Node} :
    (compiler.descend path steps type).result = .ok node? ↔
      Descends compiler steps type node? :=
  ⟨descends_of_descend, descend_of_descends⟩

end Compiler

end PathQuery.Query
