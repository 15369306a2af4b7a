import PathQuery.Query.Arguments
/-!
# What binding arguments declares

Binding the arguments of a call is a loop over the arguments that threads the table of variables
through. What it comes to needs no loop: the arguments with a value are bound in order, and each is
declared behind the variables that are there already. The loop ends well exactly if every argument
is admissible and the names of the longer table are still pairwise distinct, which the table carries
in its type.
-/

namespace PathQuery.Query

open Selection (Binding)

/-- The arguments that are bound. -/
def live (arguments : List (String × Value)) : List (String × Value) :=
  arguments.filter (!·.2.isNull)

/-- An argument with a valid name whose value is null or has a type. -/
def Admissible (names : ScalarNames) (argument : String × Value) : Prop :=
  Name.isValid argument.1 = true ∧
    (argument.2.isNull = true ∨ ∃ type, argument.2.typeName? names = some type)

def bindingsOf (rename : String → String) (arguments : List (String × Value)) : List Binding :=
  (live arguments).map fun argument => ⟨argument.1, rename argument.1⟩

/-- The variable an argument is declared as, if its value has a type. -/
def declaration? (names : ScalarNames) (rename : String → String) (argument : String × Value) :
    Option Variable :=
  (argument.2.typeName? names).map fun type => ⟨rename argument.1, type, argument.2⟩

def declarationsOf (names : ScalarNames) (rename : String → String)
    (arguments : List (String × Value)) : List Variable :=
  (live arguments).filterMap (declaration? names rename)

variable {names : ScalarNames} {rename : String → String} {onNull : String → List Event}

@[simp] theorem bindingsOf_nil : bindingsOf rename [] = [] := rfl

@[simp] theorem declarationsOf_nil : declarationsOf names rename [] = [] := rfl

theorem bindingsOf_cons (argument : String × Value) (rest : List (String × Value)) :
    bindingsOf rename (argument :: rest) =
      if argument.2.isNull then bindingsOf rename rest
      else ⟨argument.1, rename argument.1⟩ :: bindingsOf rename rest := by
  cases h : argument.2.isNull <;> simp [bindingsOf, live, h]

theorem declarationsOf_cons_of_null {argument : String × Value} (rest : List (String × Value))
    (h : argument.2.isNull = true) :
    declarationsOf names rename (argument :: rest) = declarationsOf names rename rest := by
  simp [declarationsOf, live, h]

theorem declarationsOf_cons_of_type {argument : String × Value} {type : String}
    (rest : List (String × Value)) (hlive : argument.2.isNull = false)
    (htype : argument.2.typeName? names = some type) :
    declarationsOf names rename (argument :: rest) =
      ⟨rename argument.1, type, argument.2⟩ :: declarationsOf names rename rest := by
  simp [declarationsOf, live, hlive, declaration?, htype]

/-- The declared names are the bound ones. -/
theorem map_name_declarationsOf {arguments : List (String × Value)}
    (h : ∀ argument ∈ arguments, Admissible names argument) :
    (declarationsOf names rename arguments).map Variable.name =
      (bindingsOf rename arguments).map Binding.variableName := by
  induction arguments with
  | nil => rfl
  | cons argument rest ih =>
    have hrest := ih fun other hother => h other (List.mem_cons_of_mem _ hother)
    obtain ⟨-, hnull | ⟨type, htype⟩⟩ := h argument List.mem_cons_self
    · rw [declarationsOf_cons_of_null rest hnull, bindingsOf_cons, if_pos hnull, hrest]
    · by_cases hnull : argument.2.isNull = true
      · rw [declarationsOf_cons_of_null rest hnull, bindingsOf_cons, if_pos hnull, hrest]
      · rw [declarationsOf_cons_of_type rest (Bool.not_eq_true _ ▸ hnull) htype, bindingsOf_cons,
          if_neg hnull, List.map_cons, List.map_cons, hrest]

theorem mem_declarationsOf {arguments : List (String × Value)} {v : Variable}
    (h : v ∈ declarationsOf names rename arguments) :
    ∃ argument ∈ arguments, argument.2.isNull = false ∧ v.name = rename argument.1 ∧
      v.value = argument.2 ∧ v.value.typeName? names = some v.type := by
  obtain ⟨argument, hlive, hdeclared⟩ := List.mem_filterMap.mp h
  obtain ⟨hargument, hnull⟩ := List.mem_filter.mp hlive
  obtain ⟨type, htype, rfl⟩ := Option.map_eq_some_iff.mp hdeclared
  exact ⟨argument, hargument, Bool.not_eq_true' _ ▸ hnull, rfl, rfl, htype⟩

theorem mem_bindingsOf {arguments : List (String × Value)} {binding : Binding}
    (h : binding ∈ bindingsOf rename arguments) :
    ∃ argument ∈ arguments, binding = ⟨argument.1, rename argument.1⟩ := by
  obtain ⟨argument, hlive, rfl⟩ := List.mem_map.mp h
  exact ⟨argument, (List.mem_filter.mp hlive).1, rfl⟩

theorem declareVariable_eq_ok_iff {declared after : Variables} {argument name : String}
    {value : Value} :
    (declareVariable names declared argument name value).result = .ok after ↔
      ∃ type, value.typeName? names = some type ∧
        after.toList = declared.toList ++ [⟨name, type, value⟩] := by
  unfold declareVariable
  constructor
  · intro h
    split at h
    · simp at h
    · cases htype : value.typeName? names with
      | none => simp [htype] at h
      | some type =>
        simp only [htype, Logged.result_bind, Logged.result_note, Except.bind,
          Logged.result_pure, Except.ok.injEq] at h
        subst h
        exact ⟨type, rfl, rfl⟩
  · rintro ⟨type, htype, hafter⟩
    have hfresh : name ∉ declared.names := by
      have hnodup := after.nodup_names
      rw [hafter, List.map_append, List.nodup_append] at hnodup
      intro hmem
      exact hnodup.2.2 name hmem name (by simp) rfl
    rw [dif_neg hfresh, htype]
    have hpush : declared.push ⟨name, type, value⟩ hfresh = after :=
      Variables.ext (by rw [Variables.toList_push, hafter])
    simp [Except.bind, hpush]

/-- What a successful binding of arguments comes to. -/
theorem bindArguments_eq_ok_iff {arguments : List (String × Value)} {declared after : Variables}
    {bindings : List Binding} :
    (bindArguments names rename onNull arguments declared).result = .ok (bindings, after) ↔
      (∀ argument ∈ arguments, Admissible names argument) ∧
        bindings = bindingsOf rename arguments ∧
        after.toList = declared.toList ++ declarationsOf names rename arguments := by
  induction arguments generalizing declared bindings after with
  | nil =>
    simp only [bindArguments, Logged.result_pure, Except.ok.injEq, Prod.mk.injEq,
      List.not_mem_nil, false_implies, implies_true, bindingsOf_nil, declarationsOf_nil,
      List.append_nil, true_and, Variables.ext_iff, eq_comm]
  | cons argument rest ih =>
    obtain ⟨name, value⟩ := argument
    rw [List.forall_mem_cons]
    by_cases hname : Name.isValid name = true
    · by_cases hnull : value.isNull = true
      · rw [declarationsOf_cons_of_null rest hnull, bindingsOf_cons, if_pos hnull]
        simp [bindArguments, hname, hnull, Except.bind, ih, Admissible]
      · have hlive : value.isNull = false := Bool.not_eq_true _ ▸ hnull
        simp only [bindArguments, hname, hlive, Bool.not_true, Bool.false_eq_true, if_false,
          Logged.result_bind_eq_ok_iff, declareVariable_eq_ok_iff, Logged.result_pure,
          Except.ok.injEq, Prod.mk.injEq, Prod.exists, ih]
        rw [bindingsOf_cons, if_neg hnull]
        constructor
        · rintro ⟨between, ⟨type, htype, hbetween⟩, later, last, ⟨hrest, rfl, hlast⟩, rfl, rfl⟩
          refine ⟨⟨⟨hname, .inr ⟨type, htype⟩⟩, hrest⟩, rfl, ?_⟩
          rw [declarationsOf_cons_of_type rest hlive htype, hlast, hbetween, List.append_assoc]
          rfl
        · rintro ⟨⟨⟨-, hnull' | ⟨type, htype⟩⟩, hrest⟩, rfl, hafter⟩
          · exact absurd hnull' hnull
          · rw [declarationsOf_cons_of_type rest hlive htype] at hafter
            -- The table after the first argument: it is a part of the one at the end.
            have hnodup : ((declared.toList ++ [Variable.mk (rename name) type value]).map
                Variable.name).Nodup := by
              have hlonger := after.nodup_names
              rw [hafter, List.append_cons, List.map_append] at hlonger
              exact (List.nodup_append.mp hlonger).1
            refine ⟨Variables.mk _ hnodup, ⟨type, htype, rfl⟩, bindingsOf rename rest, after,
              ⟨hrest, rfl, ?_⟩, rfl, rfl⟩
            rw [hafter, List.append_cons]
    · simp [bindArguments, hname, Admissible]

end PathQuery.Query
