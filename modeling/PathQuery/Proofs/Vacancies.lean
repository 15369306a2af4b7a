import Mathlib.Data.List.Forall2
import PathQuery.Proofs.Compilation
/-!
# Entries without a value

An argument or a parameter whose value is null is left out of the query if its name is valid. It
makes no difference whether such an entry is there in the first place: not to what a query is
compiled to, not to the fault it has, and to what is noted only where the entry itself is noted.

The two compilations are compared step by step. They go on with states that differ at most in
vacant parameters of the calls still to come; in particular the same number of calls has been
consumed, so that variables get the same names.
-/

namespace PathQuery

namespace Logged

variable {ν ε α β γ δ : Type} {kind : ν → Bool}

/-- Two computations with the same notes of a kind, which end with the same fault or with results
that are related. -/
inductive Agree (kind : ν → Bool) (R : α → β → Prop) : Logged ν ε α → Logged ν ε β → Prop
  | ok {notes others : List ν} {a : α} {b : β}
      (notes_eq : notes.filter kind = others.filter kind) (related : R a b) :
      Agree kind R ⟨notes, .ok a⟩ ⟨others, .ok b⟩
  | error {notes others : List ν} (notes_eq : notes.filter kind = others.filter kind) (e : ε) :
      Agree kind R ⟨notes, .error e⟩ ⟨others, .error e⟩

namespace Agree

variable {R : α → β → Prop} {S : γ → δ → Prop}

theorem notes_eq {x : Logged ν ε α} {y : Logged ν ε β} (h : Agree kind R x y) :
    x.notes.filter kind = y.notes.filter kind := by
  cases h <;> assumption

theorem result_eq {x y : Logged ν ε α} (h : Agree kind Eq x y) : x.result = y.result := by
  cases h with
  | ok notes_eq related => exact congrArg Except.ok related
  | error => rfl

theorem same (x : Logged ν ε α) : Agree kind Eq x x := by
  obtain ⟨notes, _ | a⟩ := x
  · exact .error rfl _
  · exact .ok rfl rfl

theorem pure {a : α} {b : β} (h : R a b) :
    Agree kind R (Pure.pure a : Logged ν ε α) (Pure.pure b) := .ok rfl h

theorem fail (e : ε) : Agree kind R (Logged.fail e : Logged ν ε α) (Logged.fail e) := .error rfl e

/-- Notes of another kind may differ. -/
theorem note {n m : ν} (hn : kind n = false) (hm : kind m = false) :
    Agree kind Eq (Logged.note n : Logged ν ε Unit) (Logged.note m) := by
  refine .ok ?_ rfl
  rw [List.filter_cons_of_neg (by simp [hn]), List.filter_cons_of_neg (by simp [hm])]

theorem bind {x : Logged ν ε α} {y : Logged ν ε β} {f : α → Logged ν ε γ} {g : β → Logged ν ε δ}
    (hx : Agree kind R x y) (hf : ∀ a b, R a b → Agree kind S (f a) (g b)) :
    Agree kind S (x >>= f) (y >>= g) := by
  cases hx with
  | error notes_eq e => exact .error notes_eq e
  | @ok notes others a b notes_eq related =>
    have hnotes : ∀ more further : List ν, more.filter kind = further.filter kind →
        (notes ++ more).filter kind = (others ++ further).filter kind := by
      intro more further hmore
      rw [List.filter_append, List.filter_append, notes_eq, hmore]
    have hrest := hf a b related
    simp only [Bind.bind]
    generalize f a = first at hrest
    generalize g b = second at hrest
    cases hrest with
    | ok hmore hrelated => exact .ok (hnotes _ _ hmore) hrelated
    | error hmore e => exact .error (hnotes _ _ hmore) e

/-- They may also stand in front on one side only. -/
theorem noteAll_bind {ns : List ν} (hns : ns.filter kind = []) {f : Unit → Logged ν ε α}
    {y : Logged ν ε β} (h : Agree kind R (f ()) y) : Agree kind R (Logged.noteAll ns >>= f) y := by
  simp only [Bind.bind, Logged.noteAll]
  generalize f () = x at h
  cases h with
  | ok notes_eq related =>
    refine .ok ?_ related
    rw [List.filter_append, hns, List.nil_append, notes_eq]
  | error notes_eq e =>
    refine .error ?_ e
    rw [List.filter_append, hns, List.nil_append, notes_eq]

end Agree

end Logged

namespace Query

open Logged (Agree)
open Schema (Field ObjectType)
open Selection (Node)

/-! ### Thinned specifications -/

/-- An entry that is left out of a query. -/
def Vacant (entry : String × Value) : Prop := Name.isValid entry.1 = true ∧ entry.2 = .null

/-- Some of the vacant entries are taken out, and the others stay in order. -/
inductive Thins : List (String × Value) → List (String × Value) → Prop
  | nil : Thins [] []
  | keep {entry : String × Value} {entries thinned : List (String × Value)}
      (rest : Thins entries thinned) : Thins (entry :: entries) (entry :: thinned)
  | take {entry : String × Value} {entries thinned : List (String × Value)}
      (vacant : Vacant entry) (rest : Thins entries thinned) : Thins (entry :: entries) thinned

/-- Any set of vacant entries can be taken out. -/
theorem thins_filter {kept : String × Value → Bool} {entries : List (String × Value)}
    (h : ∀ entry ∈ entries, kept entry = false → Vacant entry) :
    Thins entries (entries.filter kept) := by
  induction entries with
  | nil => exact .nil
  | cons entry rest ih =>
    rw [List.forall_mem_cons] at h
    cases hkept : kept entry with
    | true =>
      rw [List.filter_cons_of_pos hkept]
      exact .keep (ih h.2)
    | false =>
      rw [List.filter_cons_of_neg (by simp [hkept])]
      exact .take (h.1 hkept) (ih h.2)

structure RelationCall.Thins (call thinned : RelationCall) : Prop where
  name_eq : call.name = thinned.name
  returnType_eq : call.returnType = thinned.returnType
  parameters : Query.Thins call.parameters.toList thinned.parameters.toList

structure Include.Thins (inclusion thinned : Include) : Prop where
  path_eq : inclusion.path = thinned.path
  calls : List.Forall₂ RelationCall.Thins inclusion.calls thinned.calls

structure Spec.Thins (spec thinned : Spec) : Prop where
  name_eq : spec.name = thinned.name
  root_eq : spec.root = thinned.root
  selector_eq : spec.selector = thinned.selector
  arguments : Query.Thins spec.arguments.toList thinned.arguments.toList
  includes : List.Forall₂ Include.Thins spec.includes thinned.includes

structure State.Thins (state thinned : State) : Prop where
  consumed_eq : state.cursor.consumed = thinned.cursor.consumed
  declared_eq : state.declared = thinned.declared
  pending : List.Forall₂ RelationCall.Thins state.cursor.pending thinned.cursor.pending

/-- What one part of a compilation returns: the same, with a state that may be thinned. -/
structure Likewise {α : Type} (selected thinned : α × State) : Prop where
  fst_eq : selected.1 = thinned.1
  state : selected.2.Thins thinned.2

theorem RelationCall.Thins.fits_eq {call thinned : RelationCall} (h : call.Thins thinned)
    (field : Field) : call.fits field = thinned.fits field := by
  rw [RelationCall.fits, RelationCall.fits, h.name_eq, h.returnType_eq]

theorem State.Thins.start {includes thinned : List Include}
    (h : List.Forall₂ Include.Thins includes thinned) :
    (State.start includes).Thins (State.start thinned) :=
  ⟨rfl, rfl, List.rel_flatMap h fun _ _ hinclusion => hinclusion.calls⟩

theorem names_eq_of_thins {calls thinned : List RelationCall}
    (h : List.Forall₂ RelationCall.Thins calls thinned) :
    calls.map RelationCall.name = thinned.map RelationCall.name := by
  induction h with
  | nil => rfl
  | cons hcall hrest ih => rw [List.map_cons, List.map_cons, hcall.name_eq, ih]

theorem isEmpty_eq_of_forall₂ {α : Type} {R : α → α → Prop} {as bs : List α}
    (h : List.Forall₂ R as bs) : as.isEmpty = bs.isEmpty := by
  cases h <;> rfl

/-- Whether an event tells of something else than the entries of a specification. -/
def Event.isSubstantial : Event → Bool
  | started _ _ _ _ _ | nullArgument _ => false
  | _ => true

/-! ### Parts of a compilation -/

theorem agree_bindArguments (names : ScalarNames) (rename : String → String)
    {onNull : String → List Event}
    (honNull : ∀ argument, (onNull argument).filter Event.isSubstantial = [])
    {arguments thinned : List (String × Value)} (h : Thins arguments thinned)
    (declared : Variables) :
    Agree Event.isSubstantial Eq (bindArguments names rename onNull arguments declared)
      (bindArguments names rename onNull thinned declared) := by
  induction h generalizing declared with
  | nil => exact .same _
  | keep rest ih =>
    simp only [bindArguments]
    split
    · exact .fail _
    · split
      · exact .bind (.same _) fun _ _ _ => ih _
      · refine .bind (.same _) ?_
        rintro between _ rfl
        refine .bind (ih between) ?_
        rintro bound _ rfl
        exact .same _
  | @take entry _ _ vacant rest ih =>
    obtain ⟨name, value⟩ := entry
    obtain ⟨hname, rfl⟩ := vacant
    have hname : Name.isValid name = true := hname
    simp only [bindArguments, hname, Bool.not_true, Bool.false_eq_true, if_false]
    exact .noteAll_bind (honNull name) (ih declared)

namespace Compiler

variable (compiler : Compiler)

theorem agree_bindField (field : Field) {state thinned : State} (h : state.Thins thinned) :
    Agree Event.isSubstantial Likewise (compiler.bindField field state)
      (compiler.bindField field thinned) := by
  obtain ⟨⟨consumed, pending⟩, declared⟩ := state
  obtain ⟨⟨_, others⟩, _⟩ := thinned
  obtain ⟨rfl, rfl, hpending⟩ := h
  cases hpending with
  | nil => exact .pure ⟨rfl, rfl, rfl, .nil⟩
  | @cons call other rest others hcall hrest =>
    simp only [bindField, Cursor.peek?, List.head?_cons, hcall.fits_eq, Cursor.advance,
      hcall.name_eq]
    split
    · refine .bind (.same _) fun _ _ _ => ?_
      refine .bind (agree_bindArguments _ _ (fun _ => rfl) hcall.parameters declared) ?_
      rintro bound _ rfl
      exact .pure ⟨rfl, rfl, rfl, hrest⟩
    · exact .pure ⟨rfl, rfl, rfl, .cons hcall hrest⟩

theorem agree_dropBeyond (size : Nat) {state thinned : State} (h : state.Thins thinned) :
    Agree Event.isSubstantial State.Thins (dropBeyond size state) (dropBeyond size thinned) := by
  unfold dropBeyond
  rw [h.declared_eq]
  exact .bind (.same _) fun _ _ _ => .pure ⟨h.consumed_eq, rfl, h.pending⟩

theorem agree_follow (path : String) (segments : List String) (type : ObjectType)
    {state thinned : State} (h : state.Thins thinned) :
    Agree Event.isSubstantial Likewise (compiler.follow path segments type state)
      (compiler.follow path segments type thinned) := by
  induction segments generalizing type state thinned with
  | nil => exact .pure ⟨rfl, h⟩
  | cons segment rest ih =>
    unfold follow
    split
    · exact .fail _
    split
    · exact .fail _
    refine .bind (compiler.agree_bindField _ h) ?_
    rintro ⟨bindings, bound⟩ ⟨_, others⟩ ⟨rfl, hbound⟩
    refine .bind (.same _) fun _ _ _ => ?_
    split
    · split
      · exact .pure ⟨rfl, hbound⟩
      · exact .fail _
    refine .bind (.same _) ?_
    rintro child _ rfl
    refine .bind (ih child hbound) ?_
    rintro ⟨children, deeper⟩ ⟨_, others⟩ ⟨rfl, hdeeper⟩
    refine .bind (.same _) ?_
    rintro node? _ rfl
    cases node? with
    | some node => exact .pure ⟨rfl, hdeeper⟩
    | none =>
      rw [h.declared_eq]
      exact .bind (agree_dropBeyond _ hdeeper) fun _ _ hkept => .pure ⟨rfl, hkept⟩

theorem agree_resolveAll (root : ObjectType) {includes thinned : List Include}
    (h : List.Forall₂ Include.Thins includes thinned) {state other : State}
    (hstate : state.Thins other) :
    Agree Event.isSubstantial Likewise (compiler.resolveAll root includes state)
      (compiler.resolveAll root thinned other) := by
  induction h generalizing state other with
  | nil => exact .pure ⟨rfl, hstate⟩
  | cons hinclusion hrest ih =>
    unfold resolveAll resolve
    rw [hinclusion.path_eq]
    refine .bind (compiler.agree_follow _ _ root hstate) ?_
    rintro ⟨nodes, between⟩ ⟨_, others⟩ ⟨rfl, hbetween⟩
    refine .bind (ih hbetween) ?_
    rintro ⟨nodes, after⟩ ⟨_, others⟩ ⟨rfl, hafter⟩
    exact .pure ⟨rfl, hafter⟩

theorem agree_selection {spec thinned : Spec} (h : spec.Thins thinned) (root : ObjectType)
    {state other : State} (hstate : state.Thins other) :
    Agree Event.isSubstantial Likewise (compiler.selection spec root state)
      (compiler.selection thinned root other) := by
  unfold selection
  rw [h.selector_eq, h.name_eq, h.includes.length_eq, isEmpty_eq_of_forall₂ h.includes]
  cases thinned.selector with
  | none =>
    refine .bind (compiler.agree_resolveAll root h.includes hstate) ?_
    rintro ⟨nodes, after⟩ ⟨_, others⟩ ⟨rfl, hafter⟩
    exact .pure ⟨rfl, hafter⟩
  | some selector =>
    have hselected : Agree Event.isSubstantial Likewise
        (do let nodes ← compiler.resolveSelector root selector; return (nodes, state))
        (do let nodes ← compiler.resolveSelector root selector; return (nodes, other)) := by
      refine .bind (.same _) ?_
      rintro nodes _ rfl
      exact .pure ⟨rfl, hstate⟩
    simp only
    split
    · exact .bind (.same _) fun _ _ _ => hselected
    · exact hselected

theorem agree_rootSelection {spec thinned : Spec} (h : spec.Thins thinned) (root : ObjectType)
    {state other : State} (hstate : state.Thins other) :
    Agree Event.isSubstantial Likewise (compiler.rootSelection spec root state)
      (compiler.rootSelection thinned root other) := by
  unfold rootSelection
  refine .bind (compiler.agree_selection h root hstate) ?_
  rintro ⟨nodes, after⟩ ⟨_, others⟩ ⟨rfl, hafter⟩
  simp only
  split
  · exact .fail _
  · exact .pure ⟨rfl, hafter⟩

theorem agree_compile {spec thinned : Spec} (h : spec.Thins thinned) :
    Agree Event.isSubstantial Eq (compiler.compile spec) (compiler.compile thinned) := by
  unfold compile
  refine .bind (.note rfl rfl) fun _ _ _ => ?_
  rw [h.name_eq, h.root_eq]
  simp only
  split
  · exact .fail _
  split
  · exact .fail _
  rename_i root hroot
  refine .bind (agree_bindArguments _ _ (fun _ => rfl) h.arguments _) ?_
  rintro ⟨bindings, declared⟩ _ rfl
  have hstart := State.Thins.start h.includes
  refine .bind (compiler.agree_rootSelection h root ⟨hstart.consumed_eq, rfl, hstart.pending⟩) ?_
  rintro ⟨nodes, after⟩ ⟨_, others⟩ ⟨rfl, hafter⟩
  obtain ⟨-, hdeclared, hpending⟩ := hafter
  simp only
  rw [hdeclared, names_eq_of_thins hpending, isEmpty_eq_of_forall₂ hpending]
  exact .same _

/-- Taking out vacant arguments and vacant parameters makes no difference to the outcome of a
compilation, nor to what is noted of anything else. A call with nothing but vacant parameters is
consumed as any other: it binds nothing, but it counts. -/
theorem compile_of_thinned {spec thinned : Spec} (h : spec.Thins thinned) :
    (compiler.compile spec).result = (compiler.compile thinned).result ∧
    (compiler.compile spec).notes.filter Event.isSubstantial =
      (compiler.compile thinned).notes.filter Event.isSubstantial ∧
    ∀ (field : Field) (call : RelationCall) (rest : List RelationCall) (consumed : Nat)
      (declared : Variables), call.fits field = true →
      (∀ parameter ∈ call.parameters.toList, Vacant parameter) →
      (compiler.bindField field ⟨⟨consumed, call :: rest⟩, declared⟩).result =
        .ok ([], ⟨⟨consumed + 1, rest⟩, declared⟩) := by
  have hagree := compiler.agree_compile h
  refine ⟨hagree.result_eq, hagree.notes_eq, ?_⟩
  intro field call rest consumed declared hfits hvacant
  have hthins : Thins call.parameters.toList [] := by
    have hnone := @thins_filter (fun _ => false) call.parameters.toList
      fun parameter hparameter _ => hvacant parameter hparameter
    rwa [List.filter_false] at hnone
  have hbound := (@agree_bindArguments compiler.settings.scalarNames (positioned (consumed + 1))
    (fun _ => []) (fun _ => rfl) _ _ hthins declared).result_eq
  simp only [bindField, Cursor.peek?, List.head?_cons, hfits, if_true, Cursor.advance]
  rw [Logged.result_bind_of_ok (Logged.result_note _), Logged.result_bind_of_ok hbound]
  rfl

end Compiler

end Query

/-! ### Trips with limits that are not given -/

namespace Transit

open Query

/-- The trips of a route, all of them and those of one day, with limits that are not given. -/
def unlimited : Spec where
  name := "Route"
  root := "Route"
  arguments := (OrderedMap.empty.insert "id" (.id "HSL:2550")).insert "limit" .null
  includes :=
    [ tripsOf (OrderedMap.empty.insert "first" .null),
      tripsOf ((OrderedMap.empty.insert "first" .null).insert "serviceDate" (.string "20240101")) ]

/-- The same without a word of limits. -/
def limitless : Spec where
  name := "Route"
  root := "Route"
  arguments := OrderedMap.empty.insert "id" (.id "HSL:2550")
  includes := [tripsOf ∅, tripsOf (OrderedMap.empty.insert "serviceDate" (.string "20240101"))]

/-- The service date is that of the second call, whether limits are mentioned or not. -/
theorem compile_of_thinned_limits :
    unlimited.Thins limitless ∧
    (compiler.compile unlimited).result.map (fun operation => operation.declared.names) =
      .ok ["id", "serviceDate2"] ∧
    (compiler.bindField ⟨"Trips", .list (.object "Trip")⟩ (.start unlimited.includes)).result.map
      (fun bound => (bound.1, bound.2.cursor.consumed)) = .ok ([], 1) := by
  have hthins : unlimited.Thins limitless := by
    refine ⟨rfl, rfl, rfl, .keep (.take ⟨by decide, rfl⟩ .nil),
      .cons ⟨rfl, .cons ⟨rfl, rfl, .take ⟨by decide, rfl⟩ .nil⟩ .nil⟩
        (.cons ⟨rfl, .cons ⟨rfl, rfl, .take ⟨by decide, rfl⟩ (.keep .nil)⟩ .nil⟩ .nil)⟩
  obtain ⟨hresult, -, hbound⟩ := compiler.compile_of_thinned hthins
  refine ⟨hthins, ?_, ?_⟩
  · rw [hresult]
    rfl
  · have hfirst := hbound ⟨"Trips", .list (.object "Trip")⟩
      ⟨"Trips", .list (.object "Trip"), OrderedMap.empty.insert "first" .null⟩
      (tripsOf ((OrderedMap.empty.insert "first" .null).insert "serviceDate"
        (.string "20240101"))).calls 0 ∅ rfl
      (List.forall_mem_cons.mpr ⟨⟨by decide, rfl⟩, fun _ hnone => by contradiction⟩)
    exact congrArg _ hfirst

end Transit

end PathQuery
