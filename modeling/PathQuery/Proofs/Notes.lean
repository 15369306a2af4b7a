import PathQuery.Proofs.Compilation
/-!
# What a compilation reports as not consumed

Calls that nothing has consumed are reported once, when the selection is known. No other part of a
compilation notes anything of the kind, so the report can be read off the cursor behind the
selection.
-/

namespace PathQuery

namespace Logged

variable {ν ε α β : Type} {kind : ν → Bool}

theorem notes_bind_of_ok {x : Logged ν ε α} {a : α} (h : x.result = .ok a)
    (f : α → Logged ν ε β) : (x >>= f).notes = x.notes ++ (f a).notes := by
  obtain ⟨notes, _ | b⟩ := x
  · contradiction
  · obtain rfl : b = a := Except.ok.inj h
    rfl

/-- Nothing of a kind is noted. -/
def Lacks (kind : ν → Bool) (x : Logged ν ε α) : Prop := ∀ n ∈ x.notes, kind n = false

namespace Lacks

theorem pure (a : α) : Lacks kind (Pure.pure a : Logged ν ε α) := by
  intro n hn
  cases hn

theorem fail (e : ε) : Lacks kind (Logged.fail e : Logged ν ε α) := by
  intro n hn
  cases hn

theorem ofExcept (result : Except ε α) : Lacks kind (Logged.ofExcept result : Logged ν ε α) := by
  intro n hn
  cases hn

theorem note {n : ν} (h : kind n = false) : Lacks kind (Logged.note n : Logged ν ε Unit) := by
  intro m hm
  rw [List.mem_singleton.mp hm]
  exact h

theorem noteAll {ns : List ν} (h : ∀ n ∈ ns, kind n = false) :
    Lacks kind (Logged.noteAll ns : Logged ν ε Unit) := h

theorem bind_of_ok {x : Logged ν ε α} {f : α → Logged ν ε β} (hx : Lacks kind x)
    (hf : ∀ a, x.result = .ok a → Lacks kind (f a)) : Lacks kind (x >>= f) := by
  obtain ⟨notes, _ | a⟩ := x
  · exact hx
  · intro n hn
    rcases List.mem_append.mp hn with hn | hn
    · exact hx n hn
    · exact hf a rfl n hn

theorem bind {x : Logged ν ε α} {f : α → Logged ν ε β} (hx : Lacks kind x)
    (hf : ∀ a, Lacks kind (f a)) : Lacks kind (x >>= f) :=
  hx.bind_of_ok fun a _ => hf a

theorem filter_eq_nil {x : Logged ν ε α} (h : Lacks kind x) : x.notes.filter kind = [] := by
  rw [List.filter_eq_nil_iff]
  intro n hn
  simp [h n hn]

end Lacks

end Logged

namespace Query

open Logged (Lacks)
open Schema (Field ObjectType)

/-- Whether an event reports calls that nothing has consumed. -/
def Event.isReport : Event → Bool
  | unconsumed _ _ => true
  | _ => false

/-! ### Parts that report nothing -/

theorem lacks_declareVariable (names : ScalarNames) (declared : Variables) (argument name : String)
    (value : Value) :
    Lacks Event.isReport (declareVariable names declared argument name value) := by
  unfold declareVariable
  split
  · exact .fail _
  · split
    · exact .fail _
    · exact .bind (.note rfl) fun _ => .pure _

theorem lacks_bindArguments (names : ScalarNames) (rename : String → String)
    {onNull : String → List Event} (honNull : ∀ argument, ∀ event ∈ onNull argument,
      event.isReport = false) (arguments : List (String × Value)) (declared : Variables) :
    Lacks Event.isReport (bindArguments names rename onNull arguments declared) := by
  induction arguments generalizing declared with
  | nil => exact .pure _
  | cons argument rest ih =>
    unfold bindArguments
    split
    · exact .fail _
    · split
      · exact .bind (.noteAll (honNull argument.1)) fun _ => ih _
      · exact .bind (lacks_declareVariable _ _ _ _ _) fun _ => .bind (ih _) fun _ => .pure _

namespace Compiler

variable (compiler : Compiler)

theorem lacks_bindField (field : Field) (state : State) :
    Lacks Event.isReport (compiler.bindField field state) := by
  unfold bindField
  split
  · exact .pure _
  · split
    · exact .bind (.note rfl) fun _ =>
        .bind (lacks_bindArguments _ _ (by simp) _ _) fun _ => .pure _
    · exact .pure _

theorem lacks_wrap {kind : Event → Bool}
    (hkind : ∀ field path type, kind (.omitted field path type) = false) (field : Field)
    (arguments : List Selection.Binding) (children : List Selection.Node) (path : String)
    (child : ObjectType) : Lacks kind (compiler.wrap field arguments children path child) := by
  unfold wrap
  simp only
  split
  · split
    · exact .bind (.note (hkind _ _ _)) fun _ => .pure _
    · exact .fail _
    · exact .pure _
  · exact .pure _

theorem lacks_dropBeyond (size : Nat) (state : State) :
    Lacks Event.isReport (dropBeyond size state) := by
  refine .bind (.noteAll ?_) fun _ => .pure _
  intro event hevent
  obtain ⟨v, -, rfl⟩ := List.mem_map.mp hevent
  rfl

theorem lacks_follow (path : String) (segments : List String) (type : ObjectType) (state : State) :
    Lacks Event.isReport (compiler.follow path segments type state) := by
  induction segments generalizing type state with
  | nil => exact .pure _
  | cons segment rest ih =>
    unfold follow
    split
    · exact .fail _
    · split
      · exact .fail _
      · refine .bind (compiler.lacks_bindField _ _) fun _ => .bind (.note rfl) fun _ => ?_
        split
        · split
          · exact .pure _
          · exact .fail _
        · refine .bind (.ofExcept _) fun _ => .bind (ih _ _) fun _ =>
            .bind (compiler.lacks_wrap (fun _ _ _ => rfl) _ _ _ _ _) fun _ => ?_
          split
          · exact .pure _
          · exact .bind (lacks_dropBeyond _ _) fun _ => .pure _

theorem lacks_resolveAll (root : ObjectType) (includes : List Include) (state : State) :
    Lacks Event.isReport (compiler.resolveAll root includes state) := by
  induction includes generalizing state with
  | nil => exact .pure _
  | cons inclusion rest ih =>
    exact .bind (compiler.lacks_follow _ _ _ _) fun _ => .bind (ih _) fun _ => .pure _

theorem lacks_rootSelection {spec : Spec} (hselector : spec.selector = none) (root : ObjectType)
    (state : State) : Lacks Event.isReport (compiler.rootSelection spec root state) := by
  unfold rootSelection selection
  rw [hselector]
  refine .bind (.bind (compiler.lacks_resolveAll _ _ _) fun _ => .pure _) fun selected => ?_
  obtain ⟨nodes, after⟩ := selected
  simp only
  split
  · exact .fail _
  · exact .pure _

/-! ### The whole compilation -/

/-- The report on a cursor, if there are calls left behind it. -/
def report (spec : Spec) (cursor : Cursor) : List Event :=
  match cursor.pending with
  | [] => []
  | call :: rest => [.unconsumed ((call :: rest).map RelationCall.name) spec.name]

/-- What is reported of a successful compilation is what the cursor behind its selection has left.
-/
theorem reports_of_compile {compiler : Compiler} {spec : Spec} {root : ObjectType}
    {declared : Variables} {nodes : List Selection.Node} {after : State}
    (hselector : spec.selector = none)
    (hname : Name.isValid (Name.remote spec.name) = true)
    (hroot : compiler.registry.object? spec.root = some root)
    (hadmissible : ∀ argument ∈ spec.arguments.toList,
      Admissible compiler.settings.scalarNames argument)
    (hdeclared : declared.toList =
      declarationsOf compiler.settings.scalarNames id spec.arguments.toList)
    (hselected : (compiler.rootSelection spec root
      ⟨Cursor.ofIncludes spec.includes, declared⟩).result = .ok (nodes, after)) :
    (compiler.compile spec).notes.filter Event.isReport = report spec after.cursor := by
  have hbound : (bindArguments compiler.settings.scalarNames id
      (fun argument => [.nullArgument argument]) spec.arguments.toList
      (State.start spec.includes).declared).result =
        .ok (bindingsOf id spec.arguments.toList, declared) :=
    bindArguments_eq_ok_iff.mpr ⟨hadmissible, rfl, hdeclared⟩
  have hbindLacks : Lacks Event.isReport (bindArguments compiler.settings.scalarNames id
      (fun argument => [.nullArgument argument]) spec.arguments.toList
      (State.start spec.includes).declared) :=
    lacks_bindArguments _ _ (by simp [Event.isReport]) _ _
  have hselectLacks := compiler.lacks_rootSelection hselector root
    ⟨Cursor.ofIncludes spec.includes, declared⟩
  unfold compile
  simp only [hname, Bool.not_true, Bool.false_eq_true, if_false, hroot]
  rw [Logged.notes_bind_of_ok (Logged.result_note _), Logged.notes_bind_of_ok hbound]
  simp only [State.start] at hbindLacks ⊢
  rw [Logged.notes_bind_of_ok hselected, List.filter_append, List.filter_append,
    List.filter_append, hbindLacks.filter_eq_nil, hselectLacks.filter_eq_nil]
  rw [report]
  cases hpending : after.cursor.pending with
  | nil => rfl
  | cons call rest => rfl

end Compiler

end Query

end PathQuery
