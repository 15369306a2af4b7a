import PathQuery.Proofs.Resolution
import PathQuery.Query.Compile
/-!
# The parts of a successful compilation

A compilation succeeds exactly if each of its parts does, and what it returns is put together from
what they return. One equation for each part says so: the includes in order, the chains in order,
the selection below the root field, the whole query (`compile_eq_ok_iff`).
-/

namespace PathQuery.Query.Compiler

open Schema (ObjectType)
open Selection (Node)

variable {compiler : Compiler}

@[simp] theorem resolveAll_nil (root : ObjectType) (state : State) :
    (compiler.resolveAll root [] state).result = .ok ([], state) := rfl

theorem resolveAll_nil_eq_ok_iff {root : ObjectType} {state after : State} {nodes : List Node} :
    (compiler.resolveAll root [] state).result = .ok (nodes, after) ↔
      nodes = [] ∧ after = state := by
  simp [eq_comm]

theorem resolveAll_cons (root : ObjectType) (inclusion : Include) (rest : List Include)
    (state : State) :
    (compiler.resolveAll root (inclusion :: rest) state).result =
      (compiler.resolve root inclusion.path state).result.bind fun first =>
        (compiler.resolveAll root rest first.2).result.map fun others =>
          (first.1 ++ others.1, others.2) := by
  rw [resolveAll, Logged.result_bind]
  congr 1
  funext first
  rw [Logged.result_bind]
  cases (compiler.resolveAll root rest first.2).result <;> rfl

theorem resolveAll_cons_eq_ok_iff {root : ObjectType} {inclusion : Include} {rest : List Include}
    {state after : State} {nodes : List Node} :
    (compiler.resolveAll root (inclusion :: rest) state).result = .ok (nodes, after) ↔
      ∃ first between others,
        Follows compiler (Path.segments inclusion.path) root state first between ∧
        (compiler.resolveAll root rest between).result = .ok (others, after) ∧
        nodes = first ++ others := by
  simp only [resolveAll, Logged.result_bind_eq_ok_iff, Prod.exists, Logged.result_pure,
    Except.ok.injEq, Prod.mk.injEq, resolve, follow_eq_ok_iff]
  constructor
  · rintro ⟨first, between, hfirst, others, last, hothers, rfl, rfl⟩
    exact ⟨first, between, others, hfirst, hothers, rfl⟩
  · rintro ⟨first, between, others, hfirst, hothers, rfl⟩
    exact ⟨first, between, hfirst, others, after, hothers, rfl, rfl⟩

theorem resolveChain_of_valid {root : ObjectType} {chain : Chain}
    (hlabel : Name.isValid chain.label = true) (hsteps : chain.steps ≠ []) :
    (compiler.resolveChain root chain).result =
      (compiler.descend chain.path chain.steps root).result.map fun node? =>
        node?.map (Node.relabel chain.label) := by
  simp only [resolveChain, hlabel, Bool.not_true, Bool.false_eq_true, if_false,
    List.isEmpty_iff, if_neg hsteps]
  rw [Logged.result_bind]
  rcases (compiler.descend chain.path chain.steps root).result with error | _ | node <;> rfl

theorem resolveChain_eq_ok_iff {root : ObjectType} {chain : Chain} {node? : Option Node} :
    (compiler.resolveChain root chain).result = .ok node? ↔
      Name.isValid chain.label = true ∧ chain.steps ≠ [] ∧
        ∃ plain?, Descends compiler chain.steps root plain? ∧
          node? = plain?.map (Node.relabel chain.label) := by
  by_cases hlabel : Name.isValid chain.label = true
  · by_cases hsteps : chain.steps = []
    · simp [resolveChain, hlabel, hsteps]
    · have hdescends : ∀ plain?, Descends compiler chain.steps root plain? ↔
          (compiler.descend chain.path chain.steps root).result = .ok plain? :=
        fun _ => descend_eq_ok_iff.symm
      rw [resolveChain_of_valid hlabel hsteps]
      simp only [hlabel, true_and, ne_eq, hsteps, not_false_eq_true, hdescends]
      cases (compiler.descend chain.path chain.steps root).result <;> simp [Except.map, eq_comm]
  · simp [resolveChain, hlabel]

@[simp] theorem resolveChains_nil (root : ObjectType) :
    (compiler.resolveChains root []).result = .ok [] := rfl

theorem resolveChains_cons (root : ObjectType) (chain : Chain) (rest : List Chain) :
    (compiler.resolveChains root (chain :: rest)).result =
      (compiler.resolveChain root chain).result.bind fun node? =>
        (compiler.resolveChains root rest).result.map (node?.toList ++ ·) := by
  rw [resolveChains, Logged.result_bind]
  congr 1
  funext node?
  rw [Logged.result_bind]
  cases (compiler.resolveChains root rest).result <;> rfl

theorem resolveChains_cons_eq_ok_iff {root : ObjectType} {chain : Chain} {rest : List Chain}
    {nodes : List Node} :
    (compiler.resolveChains root (chain :: rest)).result = .ok nodes ↔
      ∃ node? others, (compiler.resolveChain root chain).result = .ok node? ∧
        (compiler.resolveChains root rest).result = .ok others ∧
        nodes = node?.toList ++ others := by
  simp only [resolveChains, Logged.result_bind_eq_ok_iff, Logged.result_pure, Except.ok.injEq]
  constructor
  · rintro ⟨node?, hnode, others, hothers, rfl⟩
    exact ⟨node?, others, hnode, hothers, rfl⟩
  · rintro ⟨node?, others, hnode, hothers, rfl⟩
    exact ⟨node?, hnode, others, hothers, rfl⟩

theorem resolveSelector_result (root : ObjectType) (selector : Selector) :
    (compiler.resolveSelector root selector).result =
      selector.check.bind fun _ => (compiler.resolveChains root selector.chains).result := by
  rw [resolveSelector, Logged.result_bind, Logged.result_ofExcept]

theorem selection_of_selector {spec : Spec} {selector : Selector}
    (h : spec.selector = some selector) (root : ObjectType) (state : State) :
    (compiler.selection spec root state).result =
      (compiler.resolveSelector root selector).result.map fun nodes => (nodes, state) := by
  simp only [selection, h]
  split <;>
  · simp only [Logged.result_bind, Logged.result_note, Except.bind]
    cases (compiler.resolveSelector root selector).result <;> rfl

theorem selection_of_includes {spec : Spec} (h : spec.selector = none) (root : ObjectType)
    (state : State) :
    (compiler.selection spec root state).result =
      (compiler.resolveAll root spec.includes state).result.map fun resolved =>
        (Node.leavesOf root ++ resolved.1, resolved.2) := by
  simp only [selection, h]
  rw [Logged.result_bind]
  cases (compiler.resolveAll root spec.includes state).result <;> rfl

theorem selection_eq_ok_iff_of_includes {spec : Spec} (h : spec.selector = none)
    {root : ObjectType} {state after : State} {nodes : List Node} :
    (compiler.selection spec root state).result = .ok (nodes, after) ↔
      ∃ included, (compiler.resolveAll root spec.includes state).result = .ok (included, after) ∧
        nodes = Node.leavesOf root ++ included := by
  rw [selection_of_includes h]
  rcases (compiler.resolveAll root spec.includes state).result with error | ⟨included, last⟩
  · simp [Except.map]
  · simp only [Except.map, Except.ok.injEq, Prod.mk.injEq]
    constructor
    · rintro ⟨rfl, rfl⟩
      exact ⟨included, ⟨rfl, rfl⟩, rfl⟩
    · rintro ⟨_, ⟨rfl, rfl⟩, rfl⟩
      exact ⟨rfl, rfl⟩

theorem selection_eq_ok_iff_of_selector {spec : Spec} {selector : Selector}
    (h : spec.selector = some selector) {root : ObjectType} {state after : State}
    {nodes : List Node} :
    (compiler.selection spec root state).result = .ok (nodes, after) ↔
      selector.check = .ok () ∧
        (compiler.resolveChains root selector.chains).result = .ok nodes ∧ after = state := by
  rw [selection_of_selector h, resolveSelector_result]
  cases selector.check with
  | error => simp [Except.bind, Except.map]
  | ok =>
    cases (compiler.resolveChains root selector.chains).result with
    | error => simp [Except.bind, Except.map]
    | ok chains => simp [Except.bind, Except.map, eq_comm]

theorem rootSelection_result (spec : Spec) (root : ObjectType) (state : State) :
    (compiler.rootSelection spec root state).result =
      (compiler.selection spec root state).result.bind fun selected =>
        if selected.1 = [] ∧ compiler.settings.emptySelection ≠ .render then
          .error (.emptySelection "" root.name)
        else .ok selected := by
  rw [rootSelection, Logged.result_bind]
  congr 1
  funext ⟨nodes, after⟩
  by_cases hempty : nodes = [] <;>
    by_cases hpolicy : compiler.settings.emptySelection = .render <;>
    simp [hempty, hpolicy]

theorem rootSelection_eq_ok_iff {spec : Spec} {root : ObjectType} {state after : State}
    {nodes : List Node} :
    (compiler.rootSelection spec root state).result = .ok (nodes, after) ↔
      (compiler.selection spec root state).result = .ok (nodes, after) ∧
        (nodes ≠ [] ∨ compiler.settings.emptySelection = .render) := by
  rw [rootSelection_result]
  rcases (compiler.selection spec root state).result with error | ⟨selected, last⟩
  · simp [Except.bind]
  · simp only [Except.bind, Except.ok.injEq, Prod.mk.injEq]
    constructor
    · intro h
      split at h
      · simp at h
      · rename_i hkept
        obtain ⟨rfl, rfl⟩ : selected = nodes ∧ last = after := by simpa using h
        refine ⟨⟨rfl, rfl⟩, ?_⟩
        by_cases hnil : selected = []
        · exact .inr (Decidable.byContradiction fun hpolicy => hkept ⟨hnil, hpolicy⟩)
        · exact .inl hnil
    · rintro ⟨⟨rfl, rfl⟩, hkept⟩
      rw [if_neg (by rintro ⟨hnil, hpolicy⟩; exact hkept.elim (· hnil) hpolicy)]

/-- What is returned once the selection below the root field is known. -/
def assemble (spec : Spec) (selected : List Node × State) : Operation :=
  ⟨selected.2.declared,
    .branch ⟨Name.remote spec.name, some Operation.resultLabel,
      bindingsOf id spec.arguments.toList⟩ selected.1⟩

theorem compile_result {spec : Spec} {root : ObjectType} {declared : Variables}
    (hname : Name.isValid (Name.remote spec.name) = true)
    (hroot : compiler.registry.object? spec.root = some root)
    (hadmissible : ∀ argument ∈ spec.arguments.toList,
      Admissible compiler.settings.scalarNames argument)
    (hdeclared : declared.toList =
      declarationsOf compiler.settings.scalarNames id spec.arguments.toList) :
    (compiler.compile spec).result =
      (compiler.rootSelection spec root ⟨Cursor.ofIncludes spec.includes, declared⟩).result.map
        (assemble spec) := by
  have hbound : (bindArguments compiler.settings.scalarNames id
      (fun argument => [.nullArgument argument]) spec.arguments.toList
      (State.start spec.includes).declared).result =
        .ok (bindingsOf id spec.arguments.toList, declared) :=
    bindArguments_eq_ok_iff.mpr ⟨hadmissible, rfl, hdeclared⟩
  simp only [compile, hname, Bool.not_true, Bool.false_eq_true, if_false, hroot]
  rw [Logged.result_bind_of_ok (Logged.result_note _), Logged.result_bind_of_ok hbound,
    Logged.result_bind]
  simp only [State.start]
  rcases (compiler.rootSelection spec root ⟨Cursor.ofIncludes spec.includes, declared⟩).result
    with error | ⟨nodes, state⟩
  · rfl
  · simp only [Except.bind]
    split <;> rfl

/-- What a successful compilation comes to. -/
theorem compile_eq_ok_iff {spec : Spec} {operation : Operation} :
    (compiler.compile spec).result = .ok operation ↔
      Name.isValid (Name.remote spec.name) = true ∧
      (∀ argument ∈ spec.arguments.toList,
        Admissible compiler.settings.scalarNames argument) ∧
      ∃ root declared selected,
        compiler.registry.object? spec.root = some root ∧
        declared.toList =
          declarationsOf compiler.settings.scalarNames id spec.arguments.toList ∧
        (compiler.rootSelection spec root ⟨Cursor.ofIncludes spec.includes, declared⟩).result =
          .ok selected ∧
        operation = assemble spec selected := by
  constructor
  · intro h
    have hname : Name.isValid (Name.remote spec.name) = true := by
      cases hname : Name.isValid (Name.remote spec.name) with
      | true => rfl
      | false => simp [compile, hname, Except.bind] at h
    cases hroot : compiler.registry.object? spec.root with
    | none => simp [compile, hname, hroot, Except.bind] at h
    | some root =>
      have hbound : ∃ bindings declared, (bindArguments compiler.settings.scalarNames id
          (fun argument => [.nullArgument argument]) spec.arguments.toList
          (State.start spec.includes).declared).result = .ok (bindings, declared) := by
        simp only [compile, hname, hroot, Bool.not_true, Bool.false_eq_true, if_false,
          Logged.result_bind_eq_ok_iff, Prod.exists] at h
        obtain ⟨-, -, bindings, declared, hbound, -⟩ := h
        exact ⟨bindings, declared, hbound⟩
      obtain ⟨bindings, declared, hbound⟩ := hbound
      obtain ⟨hadmissible, -, hdeclared⟩ := bindArguments_eq_ok_iff.mp hbound
      have hdeclared : declared.toList =
          declarationsOf compiler.settings.scalarNames id spec.arguments.toList := hdeclared
      rw [compile_result hname hroot hadmissible hdeclared] at h
      cases hselected : (compiler.rootSelection spec root
          ⟨Cursor.ofIncludes spec.includes, declared⟩).result with
      | error => simp [hselected, Except.map] at h
      | ok selected =>
        rw [hselected] at h
        exact ⟨hname, hadmissible, root, declared, selected, rfl, hdeclared, hselected,
          (Except.ok.inj h).symm⟩
  · rintro ⟨hname, hadmissible, root, declared, selected, hroot, hdeclared, hselected, rfl⟩
    rw [compile_result hname hroot hadmissible hdeclared, hselected]
    rfl

end PathQuery.Query.Compiler

/-! ### A model of routes

Small enough to compile a query by evaluation, with a type that has no leaf fields of its own. -/

namespace PathQuery.Transit

open Schema (TypeRef Field ObjectType Registry)
open Selection (Node)
open Query

def route : ObjectType :=
  ⟨"Route", [⟨"ShortName", .optional (.scalar .string)⟩, ⟨"Trips", .list (.object "Trip")⟩,
    ⟨"Alerts", .list (.object "Alert")⟩]⟩

def trip : ObjectType := ⟨"Trip", [⟨"GtfsId", .scalar .id⟩, ⟨"Route", .object "Route"⟩]⟩

def alert : ObjectType := ⟨"Alert", [⟨"Route", .object "Route"⟩]⟩

def registry : Registry :=
  ⟨["Mode"], ((OrderedMap.empty.insert "Route" route).insert "Trip" trip).insert "Alert" alert⟩

def compiler : Compiler := ⟨registry, {}⟩

/-- A compiler that knows of trips only. -/
def tripsOnly : Compiler := ⟨⟨[], OrderedMap.empty.insert "Trip" trip⟩, {}⟩

/-- A route with its trips of one day and its first alerts. -/
def spec : Spec where
  name := "Route"
  root := "Route"
  arguments := (OrderedMap.empty.insert "id" (.id "HSL:2550")).insert "limit" .null
  includes :=
    [ ⟨"alerts", [⟨"Alerts", .list (.object "Alert"), OrderedMap.empty.insert "first" (.int 3)⟩]⟩,
      ⟨"trips", [⟨"Trips", .list (.object "Trip"),
        OrderedMap.empty.insert "serviceDate" (.string "20240101")⟩]⟩ ]

/-- The trips of a route, with a call that has some parameters. -/
def tripsOf (parameters : OrderedMap String Value) : Include :=
  ⟨"trips", [⟨"Trips", .list (.object "Trip"), parameters⟩]⟩

/-- A route with a weight for its trips. -/
def weighted : Spec where
  name := "Route"
  root := "Route"
  arguments := (OrderedMap.empty.insert "id" (.id "HSL:\"2550\"")).insert "weights"
    (.list [.float 1.5, .null])

/-- A route with a text and the modes it is served by. -/
def served : Spec where
  name := "Route"
  root := "Route"
  arguments := (OrderedMap.empty.insert "name" (.string "550")).insert "modes"
    (.list [.null, .enumeration "Mode" "BUS"])

/-- The trips of a route and its name, each under a label. -/
def selector : Selector :=
  .constructed [⟨"Ids", ["trips", "gtfsId"]⟩, ⟨"Name", ["ShortName"]⟩]

/-- What becomes of it where empty selections are written: nothing is selected of the alerts. -/
def rendered : Operation where
  declared :=
    ⟨[⟨"id", "ID", .id "HSL:2550"⟩, ⟨"first1", "Int", .int 3⟩,
      ⟨"serviceDate2", "String", .string "20240101"⟩], by decide⟩
  root := .branch ⟨"route", some "result", [⟨"id", "id"⟩]⟩
    [ .leaf ⟨"shortName", none, []⟩,
      .branch ⟨"alerts", none, [⟨"first", "first1"⟩]⟩ [],
      .branch ⟨"trips", none, [⟨"serviceDate", "serviceDate2"⟩]⟩ [.leaf ⟨"gtfsId", none, []⟩] ]

/-- What is left of it where empty selections are left out. -/
def operation : Operation where
  declared :=
    ⟨[⟨"id", "ID", .id "HSL:2550"⟩, ⟨"serviceDate2", "String", .string "20240101"⟩], by decide⟩
  root := .branch ⟨"route", some "result", [⟨"id", "id"⟩]⟩
    [ .leaf ⟨"shortName", none, []⟩,
      .branch ⟨"trips", none, [⟨"serviceDate", "serviceDate2"⟩]⟩ [.leaf ⟨"gtfsId", none, []⟩] ]

end PathQuery.Transit
