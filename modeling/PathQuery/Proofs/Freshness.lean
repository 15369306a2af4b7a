import Mathlib.Data.List.Nodup
import PathQuery.Proofs.Consumption
import PathQuery.Proofs.DeadEnds
import PathQuery.Proofs.Faults
/-!
# When names of variables collide

The variable of a parameter is the parameter's name with the number of its call behind it. Two
parameters of one call never share a variable. Parameters of different calls do if the later number
ends with the earlier one and the digits in front of that are at the end of the earlier parameter's
name (`positioned_eq_positioned_iff`). The first number for which that can happen is the eleventh.

Without arguments of its own, a query runs into a variable that is already declared only in this
way. The invariant is that every variable declared so far has the name of a parameter of a call that
has been consumed. Where no fields are left out the variables are all of these, so that no query
with two parameters for one variable is compiled.
-/

namespace PathQuery.Query

open Logged (FailsOnly)
open Schema (Field ObjectType)
open Selection (Binding Node)

/-! ### Numbers behind names -/

theorem length_toString_mono {m n : Nat} (h : m ≤ n) :
    (toString m).length ≤ (toString n).length := by
  have hlength : ∀ k : Nat, (toString k).length = (Nat.toDigits 10 k).length := by
    intro k
    rw [← String.length_toList, Nat.toString_eq_repr, Nat.toList_repr]
  have hpos : 0 < (Nat.toDigits 10 n).length := List.length_pos_iff.mpr Nat.toDigits_ne_nil
  have hn : n < 10 ^ (Nat.toDigits 10 n).length :=
    (Nat.length_toDigits_le_iff (by decide) hpos).mp (Nat.le_refl _)
  rw [hlength, hlength]
  exact (Nat.length_toDigits_le_iff (by decide) hpos).mpr (by omega)

theorem eq_of_toList_toString_eq {m n : Nat} (h : (toString m).toList = (toString n).toList) :
    m = n := by
  rw [Nat.toString_eq_repr, Nat.toString_eq_repr, Nat.toList_repr, Nat.toList_repr] at h
  rw [← @Nat.ofDigitChars_ten_toDigits m, h, Nat.ofDigitChars_ten_toDigits]

theorem positioned_inj {position : Nat} {parameter other : String}
    (h : positioned position parameter = positioned position other) : parameter = other :=
  (String.append_left_inj _).mp h

/-- The later number ends with the earlier one, and the digits in front of that are what the
earlier parameter's name has more than the later one's. -/
def Borrows (earlier later : Nat) (parameter other : String) : Prop :=
  ∃ digits, digits ≠ "" ∧ toString later = digits ++ toString earlier ∧ parameter = other ++ digits

/-- The name ends with a decimal digit. -/
def EndsInDigit (name : String) : Prop := ∃ c, name.toList.getLast? = some c ∧ c.isDigit = true

/-- Of two parameters, that of the earlier call has the variable of the other one exactly if they
are the same, or if it has digits at the end of its name that the number of the later call has in
front. -/
theorem positioned_eq_positioned_iff {earlier later : Nat} (h : earlier ≤ later)
    {parameter other : String} :
    positioned earlier parameter = positioned later other ↔
      earlier = later ∧ parameter = other ∨ Borrows earlier later parameter other := by
  constructor
  · intro hname
    rcases Nat.lt_or_eq_of_le h with hlt | rfl
    · have hlists : parameter.toList ++ (toString earlier).toList =
          other.toList ++ (toString later).toList := by
        rw [← String.toList_append, ← String.toList_append]
        exact congrArg String.toList hname
      rcases List.append_eq_append_iff.mp hlists with ⟨front, -, hdigits⟩ | ⟨front, hfront, hdigits⟩
      · -- The earlier number would be the longer one, or they would be the same.
        have hlength := congrArg List.length hdigits
        rw [List.length_append, String.length_toList, String.length_toList] at hlength
        have hmono := length_toString_mono h
        obtain rfl : front = [] := List.length_eq_zero_iff.mp (by omega)
        have hsame := eq_of_toList_toString_eq hdigits
        omega
      · refine .inr ⟨String.ofList front, ?_, ?_, ?_⟩
        · intro hempty
          obtain rfl : front = [] := by simpa using congrArg String.toList hempty
          have hsame := eq_of_toList_toString_eq hdigits
          omega
        · rw [← String.toList_inj, String.toList_append, String.toList_ofList, hdigits]
        · rw [← String.toList_inj, String.toList_append, String.toList_ofList, hfront]
    · exact .inl ⟨rfl, positioned_inj hname⟩
  · rintro (⟨rfl, rfl⟩ | ⟨digits, -, hlater, rfl⟩)
    · rfl
    · rw [positioned, positioned, hlater, String.append_assoc]

/-- Up to ten, no number ends with a smaller one. -/
theorem Borrows.eleven_le {earlier later : Nat} {parameter other : String}
    (h : Borrows earlier later parameter other) (hpos : 0 < earlier) (hlt : earlier < later) :
    11 ≤ later := by
  have hsmall : ∀ n ≤ 10, ∀ m < n, 0 < m → ¬(toString m).toList <:+ (toString n).toList := by
    decide
  obtain ⟨digits, -, hdigits, -⟩ := h
  apply Decidable.byContradiction
  intro hlater
  refine hsmall later (by omega) earlier hlt hpos ⟨digits.toList, ?_⟩
  rw [hdigits, String.toList_append]

theorem Borrows.endsInDigit {earlier later : Nat} {parameter other : String}
    (h : Borrows earlier later parameter other) : EndsInDigit parameter := by
  obtain ⟨digits, hne, hdigits, rfl⟩ := h
  have hlist : digits.toList ≠ [] := by simpa using hne
  refine ⟨digits.toList.getLast hlist, ?_, ?_⟩
  · rw [String.toList_append, List.getLast?_append, List.getLast?_eq_some_getLast hlist]
    rfl
  · have hmem : digits.toList.getLast hlist ∈ Nat.toDigits 10 later := by
      rw [← Nat.toList_repr, ← Nat.toString_eq_repr, hdigits, String.toList_append]
      exact List.mem_append_left _ (List.getLast_mem hlist)
    exact Nat.isDigit_of_mem_toDigits (by decide) (by decide) hmem

/-! ### Names that are taken -/

theorem declareVariable_eq_duplicate {names : ScalarNames} {declared : Variables}
    {argument name taken : String} {value : Value}
    (h : (declareVariable names declared argument name value).result =
      .error (.duplicateVariable taken)) : taken = name ∧ taken ∈ declared.names := by
  unfold declareVariable at h
  split at h
  · rename_i hmem
    obtain rfl : name = taken := by simpa using h
    exact ⟨rfl, hmem⟩
  · split at h <;> simp [Except.bind] at h

theorem names_of_declareVariable {names : ScalarNames} {declared after : Variables}
    {argument name : String} {value : Value}
    (h : (declareVariable names declared argument name value).result = .ok after) :
    after.names = declared.names ++ [name] := by
  obtain ⟨type, -, hafter⟩ := declareVariable_eq_ok_iff.mp h
  rw [Variables.names, hafter, List.map_append]
  rfl

/-- If a variable is taken, it was so before: arguments of one call do not take each other's. -/
theorem bindArguments_eq_duplicate {names : ScalarNames} {rename : String → String}
    {onNull : String → List Event} (hrename : ∀ a b, rename a = rename b → a = b)
    {arguments : List (String × Value)} (hnodup : (arguments.map Prod.fst).Nodup)
    {declared : Variables} {taken : String}
    (h : (bindArguments names rename onNull arguments declared).result =
      .error (.duplicateVariable taken)) :
    ∃ argument ∈ arguments, argument.2.isNull = false ∧ taken = rename argument.1 ∧
      taken ∈ declared.names := by
  induction arguments generalizing declared with
  | nil => contradiction
  | cons argument rest ih =>
    obtain ⟨name, value⟩ := argument
    rw [List.map_cons, List.nodup_cons] at hnodup
    unfold bindArguments at h
    split at h
    · simp at h
    split at h
    · rw [Logged.result_bind_of_ok (Logged.result_noteAll _)] at h
      obtain ⟨other, hother, hrest⟩ := ih hnodup.2 h
      exact ⟨other, List.mem_cons_of_mem _ hother, hrest⟩
    · rename_i hnull
      rcases Logged.result_bind_eq_error_iff.mp h with hdeclare | ⟨between, hdeclare, h⟩
      · obtain ⟨rfl, hmem⟩ := declareVariable_eq_duplicate hdeclare
        exact ⟨(name, value), List.mem_cons_self, Bool.not_eq_true _ ▸ hnull, rfl, hmem⟩
      rcases Logged.result_bind_eq_error_iff.mp h with hbind | ⟨_, -, h⟩
      · obtain ⟨other, hother, hlive, rfl, hmem⟩ := ih hnodup.2 hbind
        refine ⟨other, List.mem_cons_of_mem _ hother, hlive, rfl, ?_⟩
        rw [names_of_declareVariable hdeclare, List.mem_append, List.mem_singleton] at hmem
        refine hmem.resolve_right fun hsame => ?_
        have hkey : other.1 ∈ rest.map Prod.fst := List.mem_map_of_mem hother
        exact hnodup.1 (hrename _ _ hsame ▸ hkey)
      · contradiction

/-! ### Names that calls have coined -/

/-- The call at an index has a parameter with a value. -/
def Offers (calls : List RelationCall) (index : Nat) (parameter : String) : Prop :=
  ∃ call value, calls[index]? = some call ∧ (parameter, value) ∈ call.parameters.toList ∧
    value.isNull = false

/-- The name of the variable for a parameter of the call at an index. -/
def CoinedAt (calls : List RelationCall) (index : Nat) (name : String) : Prop :=
  ∃ parameter, Offers calls index parameter ∧ name = positioned (index + 1) parameter

/-- Two of the calls in front of a position have a parameter for the same variable. -/
def Clash (calls : List RelationCall) (position : Nat) (name : String) : Prop :=
  ∃ later < position, CoinedAt calls later name ∧ ∃ earlier < later, CoinedAt calls earlier name

/-- The cursor is at a position, and all variables are for parameters of the calls in front. -/
structure Coins (calls : List RelationCall) (position : Nat) (state : State) : Prop where
  cursor_eq : state.cursor = .before calls position
  exists_index : ∀ name ∈ state.declared.names, ∃ index < position, CoinedAt calls index name

theorem Clash.mono {calls : List RelationCall} {position further : Nat} {name : String}
    (h : Clash calls position name) (hle : position ≤ further) : Clash calls further name := by
  obtain ⟨later, hlater, hcoined⟩ := h
  exact ⟨later, Nat.lt_of_lt_of_le hlater hle, hcoined⟩

/-- What is bound to a field comes from the call at the position, which is consumed. -/
theorem Cursor.mem_parameters_before {calls : List RelationCall} {position : Nat} {field : Field}
    {parameter : String × Value} (h : parameter ∈ (before calls position).parameters field) :
    step calls position field = position + 1 ∧
      ∃ call, calls[position]? = some call ∧ parameter ∈ call.parameters.toList := by
  cases hcall : calls[position]? with
  | none =>
    rw [before_of_none hcall] at h
    contradiction
  | some call =>
    rw [before_of_some hcall] at h
    by_cases hfits : call.fits field = true
    · simp only [parameters, if_pos hfits] at h
      rw [step, taken?_of_some hcall, if_pos hfits]
      exact ⟨rfl, call, rfl, h⟩
    · simp only [parameters, if_neg hfits] at h
      contradiction

theorem Cursor.coinedAt_of_mem {calls : List RelationCall} {position : Nat} {field : Field}
    {parameter : String × Value} (h : parameter ∈ (before calls position).parameters field)
    (hlive : parameter.2.isNull = false) :
    CoinedAt calls position
      (positioned ((before calls position).pass field).consumed parameter.1) := by
  obtain ⟨hstep, call, hcall, hmem⟩ := mem_parameters_before h
  rw [pass_before, hstep]
  exact ⟨parameter.1, ⟨call, parameter.2, hcall, hmem, hlive⟩, rfl⟩

/-- A field consumes the call at the position, and what it is given are the names coined there, or
it is given nothing. -/
theorem step_cases (calls : List RelationCall) (position : Nat) (field : Field) :
    (step calls position field = position ∧ given calls position field = []) ∨
    (step calls position field = position + 1 ∧ ∀ name,
      name ∈ (given calls position field).map Binding.variableName ↔
        CoinedAt calls position name) := by
  cases htaken : taken? calls position field with
  | none => exact .inl ⟨by simp [step, htaken], by simp [given, htaken]⟩
  | some call =>
    have hcall : calls[position]? = some call := (Option.filter_eq_some_iff.mp htaken).1
    refine .inr ⟨by simp [step, htaken], fun name => ?_⟩
    simp only [given, htaken, List.mem_map, List.mem_filter, Bool.not_eq_true']
    constructor
    · rintro ⟨_, ⟨parameter, ⟨hmem, hlive⟩, rfl⟩, rfl⟩
      exact ⟨parameter.1, ⟨call, parameter.2, hcall, hmem, hlive⟩, rfl⟩
    · rintro ⟨parameter, ⟨other, value, hother, hmem, hlive⟩, rfl⟩
      obtain rfl : call = other := Option.some.inj (hcall.symm.trans hother)
      exact ⟨_, ⟨(parameter, value), ⟨hmem, hlive⟩, rfl⟩, rfl⟩

theorem Cursor.nodup_parameters (cursor : Cursor) (field : Field) :
    ((cursor.parameters field).map Prod.fst).Nodup := by
  unfold parameters
  split
  · exact List.nodup_nil
  · split
    · exact OrderedMap.nodup_keys _
    · exact List.nodup_nil

namespace Compiler

variable {compiler : Compiler} {calls : List RelationCall}

/-- Only its parameters can be at fault when a field is given its arguments. -/
theorem fault_of_bindField {field : Field} {state : State} {error : Error}
    (h : (compiler.bindField field state).result = .error error) :
    (bindArguments compiler.settings.scalarNames
      (positioned (state.cursor.pass field).consumed) (fun _ => [])
      (state.cursor.parameters field) state.declared).result = .error error := by
  obtain ⟨⟨consumed, pending⟩, declared⟩ := state
  cases pending with
  | nil => contradiction
  | cons call rest =>
    by_cases hfits : call.fits field = true
    · simp only [bindField, Cursor.peek?, List.head?_cons, hfits, if_true] at h
      rw [Logged.result_bind_of_ok (Logged.result_note _)] at h
      simp only [Cursor.parameters, Cursor.pass, hfits, if_true]
      rcases Logged.result_bind_eq_error_iff.mp h with h | ⟨_, -, h⟩
      · exact h
      · contradiction
    · simp only [bindField, Cursor.peek?, List.head?_cons, hfits, Bool.false_eq_true, if_false] at h
      contradiction

theorem names_of_bindField {field : Field} {position : Nat} {state bound : State}
    {bindings : List Binding} (hcursor : state.cursor = .before calls position)
    (h : (compiler.bindField field state).result = .ok (bindings, bound)) :
    bound.declared.names =
      state.declared.names ++ (given calls position field).map Binding.variableName := by
  obtain ⟨hadmissible, -, -, hdeclared⟩ := bindField_eq_ok_iff.mp h
  rw [Variables.names, hdeclared, List.map_append, Cursor.declarations,
    map_name_declarationsOf hadmissible, hcursor, ← Cursor.arguments_before]
  rfl

theorem coins_of_bindField {field : Field} {position : Nat} {state bound : State}
    {bindings : List Binding} (hstate : Coins calls position state)
    (h : (compiler.bindField field state).result = .ok (bindings, bound)) :
    Coins calls (step calls position field) bound := by
  obtain ⟨hcursor, hcoined⟩ := hstate
  refine ⟨(given_of_bindField h hcursor).2, fun name hname => ?_⟩
  rw [names_of_bindField hcursor h, List.mem_append] at hname
  rcases hname with hname | hname
  · obtain ⟨index, hindex, hat⟩ := hcoined name hname
    exact ⟨index, Nat.lt_of_lt_of_le hindex (le_step calls position field), hat⟩
  · rcases step_cases calls position field with ⟨-, hgiven⟩ | ⟨hstep, hgiven⟩
    · rw [hgiven] at hname
      contradiction
    · exact ⟨position, by omega, (hgiven name).mp hname⟩

theorem clash_of_bindField {field : Field} {position : Nat} {state : State} {name : String}
    (hstate : Coins calls position state)
    (h : (compiler.bindField field state).result = .error (.duplicateVariable name)) :
    Clash calls (step calls position field) name := by
  have hbind := fault_of_bindField h
  obtain ⟨parameter, hparameter, hlive, rfl, hmem⟩ :=
    bindArguments_eq_duplicate (fun _ _ => positioned_inj) (Cursor.nodup_parameters _ _) hbind
  obtain ⟨earlier, hearlier, hat⟩ := hstate.exists_index _ hmem
  rw [hstate.cursor_eq] at hparameter hat ⊢
  have hstep := (Cursor.mem_parameters_before hparameter).1
  exact ⟨position, by omega, Cursor.coinedAt_of_mem hparameter hlive, earlier, hearlier, hat⟩

theorem Follows.coins {segments : List String} {type : ObjectType} {state after : State}
    {nodes : List Node} (h : Follows compiler segments type state nodes after) {position : Nat}
    (hstate : Coins calls position state) :
    Coins calls (scan calls position (compiler.registry.visited segments type)) after := by
  induction h generalizing position with
  | stop => exact hstate
  | leaf step isLeaf bind =>
    rw [Schema.Registry.visited_of_leaf step.field?_eq (compiler.registry.below?_of_isLeaf isLeaf)]
    exact coins_of_bindField hstate bind
  | branch step isLeaf bind target below keep ih =>
    rw [Schema.Registry.visited_of_child step.field?_eq (target_eq_ok_iff_below?.mp target)]
    exact ih (coins_of_bindField hstate bind)
  | omitted step isLeaf bind target below policy ih =>
    rw [Schema.Registry.visited_of_child step.field?_eq (target_eq_ok_iff_below?.mp target)]
    obtain ⟨hcursor, hcoined⟩ := ih (coins_of_bindField hstate bind)
    refine ⟨hcursor, fun name hname => hcoined name ?_⟩
    rw [Variables.names, Variables.toList_take, List.map_take] at hname
    exact List.mem_of_mem_take hname

theorem Fails.clash {path name : String} {segments : List String} {type : ObjectType}
    {state : State} (h : Fails compiler path segments type state (.duplicateVariable name))
    {position : Nat} (hstate : Coins calls position state) :
    Clash calls (scan calls position (compiler.registry.visited segments type)) name := by
  generalize herror : Error.duplicateVariable name = error at h
  induction h generalizing position with
  | emptySegment | undefinedField | pastLeaf | nothingBelow => contradiction
  | bind step fault =>
    subst herror
    simp only [Schema.Registry.visited, step.field?_eq]
    exact (clash_of_bindField hstate fault).mono (le_scan _ _ _)
  | target step isLeaf bind fault =>
    obtain ⟨missing, rfl⟩ := exists_undefinedType_of_target fault
    contradiction
  | deeper step isLeaf bind target fails ih =>
    rw [Schema.Registry.visited_of_child step.field?_eq (target_eq_ok_iff_below?.mp target)]
    exact ih (coins_of_bindField hstate bind) herror

theorem clash_of_resolveAll {root : ObjectType} {includes : List Include} {state : State}
    {name : String}
    (h : (compiler.resolveAll root includes state).result = .error (.duplicateVariable name))
    {position : Nat} (hstate : Coins calls position state) :
    Clash calls (scan calls position (compiler.paths root includes).flatten) name := by
  induction includes generalizing state position with
  | nil => contradiction
  | cons inclusion rest ih =>
    rw [paths_cons, List.flatten_cons, scan_append]
    unfold resolveAll at h
    rcases Logged.result_bind_eq_error_iff.mp h with hfirst | ⟨⟨nodes, between⟩, hfirst, h⟩
    · exact ((fails_of_follow hfirst).clash hstate).mono (le_scan _ _ _)
    rcases Logged.result_bind_eq_error_iff.mp h with hrest | ⟨_, -, h⟩
    · exact ih hrest ((follows_of_follow hfirst).coins hstate)
    · contradiction

/-! ### Where nothing is left out -/

/-- All that is coined in front of the position is declared, and no two parameters share a name. -/
structure Keeps (calls : List RelationCall) (position : Nat) (state : State) : Prop where
  cursor_eq : state.cursor = .before calls position
  mem_names : ∀ index < position, ∀ name, CoinedAt calls index name → name ∈ state.declared.names
  not_clash : ∀ name, ¬Clash calls position name

theorem keeps_of_bindField {field : Field} {position : Nat} {state bound : State}
    {bindings : List Binding} (hstate : Keeps calls position state)
    (h : (compiler.bindField field state).result = .ok (bindings, bound)) :
    Keeps calls (step calls position field) bound := by
  obtain ⟨hcursor, hmem, hclash⟩ := hstate
  have hbound := (given_of_bindField h hcursor).2
  have hnames := names_of_bindField hcursor h
  rcases step_cases calls position field with ⟨hstep, hgiven⟩ | ⟨hstep, hgiven⟩
  · rw [hstep] at hbound ⊢
    rw [hgiven, List.map_nil, List.append_nil] at hnames
    exact ⟨hbound, hnames ▸ hmem, hclash⟩
  · rw [hstep] at hbound ⊢
    refine ⟨hbound, fun index hindex name hat => ?_, fun name => ?_⟩
    · rw [hnames, List.mem_append]
      rcases Nat.lt_succ_iff_lt_or_eq.mp hindex with hlt | rfl
      · exact .inl (hmem index hlt name hat)
      · exact .inr ((hgiven name).mpr hat)
    · rintro ⟨later, hlater, hat, earlier, hearlier, hother⟩
      rcases Nat.lt_succ_iff_lt_or_eq.mp hlater with hlt | rfl
      · exact hclash name ⟨later, hlt, hat, earlier, hearlier, hother⟩
      · -- The name would be declared twice.
        have hnodup : bound.declared.names.Nodup := bound.declared.nodup_names
        rw [hnames] at hnodup
        exact List.disjoint_of_nodup_append hnodup (hmem earlier hearlier name hother)
          ((hgiven name).mpr hat)

theorem Follows.keeps {segments : List String} {type : ObjectType} {state after : State}
    {nodes : List Node} (h : Follows compiler segments type state nodes after)
    (hpolicy : compiler.settings.emptySelection ≠ .omit) {position : Nat}
    (hstate : Keeps calls position state) :
    Keeps calls (scan calls position (compiler.registry.visited segments type)) after := by
  induction h generalizing position with
  | stop => exact hstate
  | leaf step isLeaf bind =>
    rw [Schema.Registry.visited_of_leaf step.field?_eq (compiler.registry.below?_of_isLeaf isLeaf)]
    exact keeps_of_bindField hstate bind
  | branch step isLeaf bind target below keep ih =>
    rw [Schema.Registry.visited_of_child step.field?_eq (target_eq_ok_iff_below?.mp target)]
    exact ih (keeps_of_bindField hstate bind)
  | omitted step isLeaf bind target below policy ih => exact absurd policy hpolicy

theorem keeps_of_resolveAll {root : ObjectType} {includes : List Include} {state after : State}
    {nodes : List Node} (h : (compiler.resolveAll root includes state).result = .ok (nodes, after))
    (hpolicy : compiler.settings.emptySelection ≠ .omit) {position : Nat}
    (hstate : Keeps calls position state) :
    Keeps calls (scan calls position (compiler.paths root includes).flatten) after := by
  induction includes generalizing state nodes position with
  | nil =>
    obtain ⟨-, rfl⟩ := resolveAll_nil_eq_ok_iff.mp h
    exact hstate
  | cons inclusion rest ih =>
    obtain ⟨first, between, others, hfirst, hothers, -⟩ := resolveAll_cons_eq_ok_iff.mp h
    rw [paths_cons, List.flatten_cons, scan_append]
    exact ih hothers (hfirst.keeps hpolicy hstate)

/-! ### Selectors bind nothing -/

theorem not_ofBinding_of_resolveSelector (root : ObjectType) (selector : Selector) :
    FailsOnly (¬·.OfBinding) (compiler.resolveSelector root selector) := by
  have hpath : ∀ error : Error, error.OfPath → ¬error.OfBinding := by
    rintro error ⟨⟩ <;> nofun
  have hlabels : ∀ error : Error, error.OfLabels → ¬error.OfBinding := by
    rintro error ⟨⟩ <;> nofun
  exact failsOnly_resolveSelector hpath hlabels (.of_any fun name => by nofun) trivial selector

/-! ### Whole queries -/

theorem eq_error_of_map {ε α β : Type} {f : α → β} {result : Except ε α} {error : ε}
    (h : result.map f = .error error) : result = .error error := by
  cases result with
  | error => exact congrArg Except.error (Except.error.inj h)
  | ok => contradiction

theorem clash_of_rootSelection {spec : Spec} {root : ObjectType} {state : State} {name : String}
    (h : (compiler.rootSelection spec root state).result = .error (.duplicateVariable name))
    {position : Nat} (hstate : Coins calls position state) :
    Clash calls (scan calls position (compiler.paths root spec.includes).flatten) name := by
  have hselection : (compiler.selection spec root state).result =
      .error (.duplicateVariable name) := by
    rw [rootSelection_result] at h
    cases hselection : (compiler.selection spec root state).result with
    | error error =>
      rw [hselection] at h
      exact congrArg _ (Except.error.inj h)
    | ok selected =>
      rw [hselection] at h
      simp only [Except.bind] at h
      split at h <;> cases h
  cases hselector : spec.selector with
  | none =>
    rw [selection_of_includes hselector] at hselection
    exact clash_of_resolveAll (eq_error_of_map hselection) hstate
  | some selector =>
    rw [selection_of_selector hselector] at hselection
    exact absurd (.duplicate name)
      (not_ofBinding_of_resolveSelector root selector _ (eq_error_of_map hselection))

theorem clash_of_compile {spec : Spec} (harguments : spec.arguments.toList = []) {name : String}
    (h : (compiler.compile spec).result = .error (.duplicateVariable name)) :
    ∃ root, compiler.registry.object? spec.root = some root ∧
      Clash (spec.includes.flatMap Include.calls)
        (scan (spec.includes.flatMap Include.calls) 0 (compiler.paths root spec.includes).flatten)
        name := by
  have hname : Name.isValid (Name.remote spec.name) = true := by
    cases hname : Name.isValid (Name.remote spec.name) with
    | true => rfl
    | false => simp [compile, hname, Except.bind] at h
  cases hroot : compiler.registry.object? spec.root with
  | none => simp [compile, hname, hroot, Except.bind] at h
  | some root =>
    have hstart : Coins (spec.includes.flatMap Include.calls) 0
        ⟨Cursor.ofIncludes spec.includes, ∅⟩ :=
      ⟨(Cursor.before_zero spec.includes).symm, fun name hname => by contradiction⟩
    have hadmissible : ∀ argument ∈ spec.arguments.toList,
        Admissible compiler.settings.scalarNames argument := by simp [harguments]
    have hdeclared : (∅ : Variables).toList =
        declarationsOf compiler.settings.scalarNames id spec.arguments.toList := by
      rw [harguments]
      rfl
    rw [compile_result hname hroot hadmissible hdeclared] at h
    exact ⟨root, rfl, clash_of_rootSelection (eq_error_of_map h) hstart⟩

theorem not_clash_of_compile {spec : Spec} (hselector : spec.selector = none)
    (hpolicy : compiler.settings.emptySelection ≠ .omit) {operation : Operation}
    (h : (compiler.compile spec).result = .ok operation) {root : ObjectType}
    (hroot : compiler.registry.object? spec.root = some root) (name : String) :
    ¬Clash (spec.includes.flatMap Include.calls)
      (scan (spec.includes.flatMap Include.calls) 0 (compiler.paths root spec.includes).flatten)
      name := by
  obtain ⟨-, -, other, declared, ⟨nodes, after⟩, hother, -, hselected, -⟩ := compile_eq_ok_iff.mp h
  obtain rfl : root = other := Option.some.inj (hroot.symm.trans hother)
  have hselection := (rootSelection_eq_ok_iff.mp hselected).1
  obtain ⟨included, hincluded, -⟩ := (selection_eq_ok_iff_of_includes hselector).mp hselection
  have hstart : Keeps (spec.includes.flatMap Include.calls) 0
      ⟨Cursor.ofIncludes spec.includes, declared⟩ := by
    refine ⟨(Cursor.before_zero spec.includes).symm, fun index hindex => ?_, ?_⟩
    · contradiction
    · rintro name ⟨later, hlater, -⟩
      contradiction
  exact (keeps_of_resolveAll hincluded hpolicy hstart).not_clash name

/-- Where a query has no arguments of its own, a variable is already declared only if two of the
calls that are consumed have a parameter for it, and the number of the later call takes its first
digits from the name of the earlier parameter. There is no other way for two parameters to have the
same variable. A query that consumes two such calls is not compiled unless fields are left out. -/
theorem compile_keeps_names_apart {spec : Spec} (harguments : spec.arguments.toList = []) :
    (∀ name, (compiler.compile spec).result = .error (.duplicateVariable name) →
      ∃ root earlier later parameter other,
        compiler.registry.object? spec.root = some root ∧ earlier < later ∧
        later < scan (spec.includes.flatMap Include.calls) 0
          (compiler.paths root spec.includes).flatten ∧
        Offers (spec.includes.flatMap Include.calls) earlier parameter ∧
        Offers (spec.includes.flatMap Include.calls) later other ∧
        name = positioned (later + 1) other ∧
        Borrows (earlier + 1) (later + 1) parameter other ∧ 10 ≤ later ∧
        EndsInDigit parameter) ∧
    (∀ earlier later parameter other, earlier ≤ later →
      (positioned (earlier + 1) parameter = positioned (later + 1) other ↔
        earlier = later ∧ parameter = other ∨
          Borrows (earlier + 1) (later + 1) parameter other)) ∧
    (spec.selector = none → compiler.settings.emptySelection ≠ .omit →
      ∀ operation, (compiler.compile spec).result = .ok operation →
      ∀ root, compiler.registry.object? spec.root = some root →
      ∀ earlier later parameter other, earlier < later →
        later < scan (spec.includes.flatMap Include.calls) 0
          (compiler.paths root spec.includes).flatten →
        Offers (spec.includes.flatMap Include.calls) earlier parameter →
        Offers (spec.includes.flatMap Include.calls) later other →
        ¬Borrows (earlier + 1) (later + 1) parameter other) := by
  refine ⟨fun name h => ?_, fun earlier later parameter other hle => ?_, ?_⟩
  · obtain ⟨root, hroot, later, hlater, ⟨other, hother, hname⟩, earlier, hearlier, parameter,
      hparameter, hsame⟩ := clash_of_compile harguments h
    have hborrows : Borrows (earlier + 1) (later + 1) parameter other := by
      have hpositioned : positioned (earlier + 1) parameter = positioned (later + 1) other :=
        hsame.symm.trans hname
      refine ((positioned_eq_positioned_iff (by omega)).mp hpositioned).resolve_left ?_
      rintro ⟨hindex, -⟩
      omega
    have heleven := hborrows.eleven_le (by omega) (by omega)
    exact ⟨root, earlier, later, parameter, other, hroot, hearlier, hlater, hparameter, hother,
      hname, hborrows, by omega, hborrows.endsInDigit⟩
  · rw [positioned_eq_positioned_iff (by omega), Nat.add_right_cancel_iff]
  · intro hselector hpolicy operation hcompile root hroot earlier later parameter other hearlier
      hlater hparameter hother hborrows
    have hsame : positioned (earlier + 1) parameter = positioned (later + 1) other :=
      (positioned_eq_positioned_iff (by omega)).mpr (.inr hborrows)
    exact not_clash_of_compile hselector hpolicy hcompile hroot _
      ⟨later, hlater, ⟨other, hother, rfl⟩, earlier, hearlier, parameter, hparameter, hsame.symm⟩

end Compiler

end PathQuery.Query

/-! ### Trips of many days -/

namespace PathQuery.Transit

open Query

/-- A route with its trips eleven times, of days for which the parameter is spelled in two ways. -/
def days : Spec where
  name := "Route"
  root := "Route"
  includes := tripsOf (OrderedMap.empty.insert "day1" (.int 1)) ::
    (List.replicate 9 (tripsOf ∅) ++ [tripsOf (OrderedMap.empty.insert "day" (.int 2))])

/-- The first and the eleventh call have a parameter each, and both are for the same variable. -/
theorem duplicateVariable_of_days :
    days.arguments.toList = [] ∧
    Offers (days.includes.flatMap Include.calls) 0 "day1" ∧
    Offers (days.includes.flatMap Include.calls) 10 "day" ∧
    positioned 1 "day1" = positioned 11 "day" ∧
    (compiler.compile days).result = .error (.duplicateVariable "day11") :=
  ⟨rfl, ⟨_, .int 1, rfl, List.mem_cons_self, rfl⟩, ⟨_, .int 2, rfl, List.mem_cons_self, rfl⟩,
    by decide, rfl⟩

/-- That takes a parameter whose name ends with a digit. Spelled in one way, days would be kept
apart. -/
theorem keeps_names_apart_of_days :
    days.arguments.toList = [] ∧
    (compiler.compile days).result = .error (.duplicateVariable "day11") ∧
    (∃ earlier later parameter, earlier < later ∧ 10 ≤ later ∧
      Offers (days.includes.flatMap Include.calls) earlier parameter ∧ EndsInDigit parameter) ∧
    positioned 1 "day" ≠ positioned 11 "day" := by
  obtain ⟨hclash, hnames, -⟩ := @Compiler.compile_keeps_names_apart compiler days rfl
  have hdays : (compiler.compile days).result = .error (.duplicateVariable "day11") := rfl
  obtain ⟨-, earlier, later, parameter, -, -, hlt, -, hoffers, -, -, -, hten, hdigit⟩ :=
    hclash "day11" hdays
  refine ⟨rfl, hdays, ⟨earlier, later, parameter, hlt, hten, hoffers, hdigit⟩, fun hsame => ?_⟩
  rcases (hnames 0 10 "day" "day" (by decide)).mp hsame with ⟨hindex, -⟩ | hborrows
  · contradiction
  · obtain ⟨c, hlast, hc⟩ := hborrows.endsInDigit
    obtain rfl : 'y' = c := Option.some.inj hlast
    contradiction

end PathQuery.Transit
