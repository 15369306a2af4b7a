import PathQuery.Proofs.DeadEnds
import PathQuery.Query.Compile
/-!
# What a compilation can fail with

A logged computation fails with what one of its steps fails with, so what can be said of the faults
of the steps can be said of the whole. Three kinds of faults are kept apart: those of binding
arguments, those of following a path and those of the labels of a selector. Besides these, a
selection can only miss a type, and whether it does depends on the types it comes through
(`Compiler.Below`). Each part of a compilation has one lemma, for any kind of faults that takes in
what can go wrong in that part.
-/

namespace PathQuery

namespace Logged

variable {ν ε α β : Type} {P Q : ε → Prop}

/-- Every fault is of one kind. -/
def FailsOnly (P : ε → Prop) (x : Logged ν ε α) : Prop := ∀ e, x.result = .error e → P e

namespace FailsOnly

theorem pure (a : α) : FailsOnly P (Pure.pure a : Logged ν ε α) := by
  intro e he
  contradiction

theorem fail {e : ε} (h : P e) : FailsOnly P (Logged.fail e : Logged ν ε α) := by
  intro other hother
  exact Except.error.inj hother ▸ h

theorem ofExcept {result : Except ε α} (h : ∀ e, result = .error e → P e) :
    FailsOnly P (Logged.ofExcept result : Logged ν ε α) := h

theorem note (n : ν) : FailsOnly P (Logged.note n : Logged ν ε Unit) := by
  intro e he
  contradiction

theorem noteAll (ns : List ν) : FailsOnly P (Logged.noteAll ns : Logged ν ε Unit) := by
  intro e he
  contradiction

theorem bind_of_ok {x : Logged ν ε α} {f : α → Logged ν ε β} (hx : FailsOnly P x)
    (hf : ∀ a, x.result = .ok a → FailsOnly P (f a)) : FailsOnly P (x >>= f) := by
  intro e he
  rcases result_bind_eq_error_iff.mp he with he | ⟨a, ha, he⟩
  · exact hx e he
  · exact hf a ha e he

theorem bind {x : Logged ν ε α} {f : α → Logged ν ε β} (hx : FailsOnly P x)
    (hf : ∀ a, FailsOnly P (f a)) : FailsOnly P (x >>= f) :=
  hx.bind_of_ok fun a _ => hf a

theorem mono {x : Logged ν ε α} (h : FailsOnly P x) (himp : ∀ e, P e → Q e) : FailsOnly Q x :=
  fun e he => himp e (h e he)

end FailsOnly

end Logged

namespace Query

open Logged (FailsOnly)
open Schema (Field ObjectType)
open Selection (Binding Node)

namespace Error

/-- The faults of binding arguments to variables. -/
inductive OfBinding : Error → Prop
  | duplicate (name : String) : OfBinding (.duplicateVariable name)
  | untyped (argument : String) (kind : Value.Kind) : OfBinding (.untypedArgument argument kind)
  | invalid (name : String) : OfBinding (.invalidArgument name)

/-- The faults of following a path or a chain, but for missing types. -/
inductive OfPath : Error → Prop
  | emptySegment (path : String) : OfPath (.emptySegment path)
  | emptySelection (path type : String) : OfPath (.emptySelection path type)
  | pastLeaf (path segment type remaining : String) :
      OfPath (.pastLeaf path segment type remaining)
  | undefinedField (path segment type : String) : OfPath (.undefinedField path segment type)

/-- The faults of the labels of a selector and of what they stand for. -/
inductive OfLabels : Error → Prop
  | duplicate (label : String) : OfLabels (.duplicateLabel label)
  | invalid (label : String) : OfLabels (.invalidLabel label)
  | noChains : OfLabels .noChains
  | noSteps (label : String) : OfLabels (.noSteps label)

end Error

theorem failsOnly_declareVariable (names : ScalarNames) (declared : Variables)
    (argument name : String) (value : Value) :
    FailsOnly Error.OfBinding (declareVariable names declared argument name value) := by
  unfold declareVariable
  split
  · exact .fail (.duplicate name)
  · split
    · exact .fail (.untyped argument value.kind)
    · exact .bind (.note _) fun _ => .pure _

theorem failsOnly_bindArguments (names : ScalarNames) (rename : String → String)
    (onNull : String → List Event) (arguments : List (String × Value)) (declared : Variables) :
    FailsOnly Error.OfBinding (bindArguments names rename onNull arguments declared) := by
  induction arguments generalizing declared with
  | nil => exact .pure _
  | cons argument rest ih =>
    unfold bindArguments
    split
    · exact .fail (.invalid argument.1)
    · split
      · exact .bind (.noteAll _) fun _ => ih _
      · exact .bind (failsOnly_declareVariable _ _ _ _ _) fun _ => .bind (ih _) fun _ => .pure _

namespace Compiler

variable (compiler : Compiler)

theorem failsOnly_bindField (field : Field) (state : State) :
    FailsOnly Error.OfBinding (compiler.bindField field state) := by
  unfold bindField
  split
  · exact .pure _
  · split
    · exact .bind (.note _) fun _ => .bind (failsOnly_bindArguments _ _ _ _ _) fun _ => .pure _
    · exact .pure _

theorem failsOnly_wrap (field : Field) (arguments : List Binding) (children : List Node)
    (path : String) (child : ObjectType) :
    FailsOnly (· = .emptySelection path child.name)
      (compiler.wrap field arguments children path child) := by
  unfold wrap
  simp only
  split
  · split
    · exact .bind (.note _) fun _ => .pure _
    · exact .fail rfl
    · exact .pure _
  · exact .pure _

theorem failsOnly_check (selector : Selector) :
    ∀ e, selector.check = .error e → e.OfLabels := by
  intro e he
  unfold Selector.check at he
  split at he
  · contradiction
  · obtain rfl := Except.error.inj he
    exact .noChains
  · split at he
    · obtain rfl := Except.error.inj he
      exact .duplicate _
    · contradiction

/-! ### Selections -/

/-- Looking for the types below some types leads to such types again, or fails in one way. -/
structure Below (types : ObjectType → Prop) (P : Error → Prop) : Prop where
  fails : ∀ {type : ObjectType} {segment : String} {field : Field}, types type →
    type.field? segment = some field → field.isLeaf = false →
      ∀ e, compiler.target field.type.element = .error e → P e
  leads : ∀ {type child : ObjectType} {segment : String} {field : Field}, types type →
    type.field? segment = some field → field.isLeaf = false →
      compiler.target field.type.element = .ok child → types child

variable {compiler} {P : Error → Prop} {types : ObjectType → Prop}

/-- Wherever a path leads, at worst a type is missing. -/
theorem Below.of_any (h : ∀ name, P (.undefinedType name)) :
    compiler.Below (fun _ => True) P := by
  refine ⟨fun _ _ _ e he => ?_, fun _ _ _ _ => trivial⟩
  obtain ⟨name, rfl⟩ := exists_undefinedType_of_target he
  exact h name

theorem failsOnly_follow (hbinding : ∀ e, e.OfBinding → P e) (hpath : ∀ e, e.OfPath → P e)
    (hbelow : compiler.Below types P) (path : String) (segments : List String) {type : ObjectType}
    (htype : types type) (state : State) :
    FailsOnly P (compiler.follow path segments type state) := by
  induction segments generalizing type state with
  | nil => exact .pure _
  | cons segment rest ih =>
    unfold follow
    split
    · exact .fail (hpath _ (.emptySegment path))
    · split
      · exact .fail (hpath _ (.undefinedField path segment type.name))
      · rename_i field hfield
        refine .bind ((compiler.failsOnly_bindField field state).mono hbinding) fun bound =>
          .bind (.note _) fun _ => ?_
        split
        · split
          · exact .pure _
          · exact .fail (hpath _ (.pastLeaf path segment type.name (Path.join rest)))
        · rename_i hleaf
          have hleaf : field.isLeaf = false := Bool.not_eq_true _ ▸ hleaf
          refine .bind_of_ok (.ofExcept (hbelow.fails htype hfield hleaf)) fun child htarget => ?_
          have hchild := hbelow.leads htype hfield hleaf htarget
          refine .bind (ih hchild bound.2) fun below => .bind ?_ fun node? => ?_
          · refine (compiler.failsOnly_wrap field bound.1 below.1 path child).mono ?_
            rintro _ rfl
            exact hpath _ (.emptySelection path child.name)
          · split
            · exact .pure _
            · exact .bind (.bind (.noteAll _) fun _ => .pure _) fun _ => .pure _

theorem failsOnly_descend (hpath : ∀ e, e.OfPath → P e) (hbelow : compiler.Below types P)
    (path : String) (steps : List String) {type : ObjectType} (htype : types type) :
    FailsOnly P (compiler.descend path steps type) := by
  induction steps generalizing type with
  | nil => exact .pure _
  | cons step rest ih =>
    unfold descend
    split
    · exact .fail (hpath _ (.undefinedField path step type.name))
    · rename_i field hfield
      split
      · split
        · exact .pure _
        · exact .fail (hpath _ (.pastLeaf path step type.name (Path.join rest)))
      · rename_i hleaf
        have hleaf : field.isLeaf = false := Bool.not_eq_true _ ▸ hleaf
        refine .bind_of_ok (.ofExcept (hbelow.fails htype hfield hleaf)) fun child htarget => ?_
        split
        · refine (compiler.failsOnly_wrap field [] (Node.leavesOf child) path child).mono ?_
          rintro _ rfl
          exact hpath _ (.emptySelection path child.name)
        · exact .bind (ih (hbelow.leads htype hfield hleaf htarget)) fun _ => .pure _

theorem failsOnly_resolveChain (hpath : ∀ e, e.OfPath → P e) (hlabels : ∀ e, e.OfLabels → P e)
    (hbelow : compiler.Below types P) {root : ObjectType} (hroot : types root) (chain : Chain) :
    FailsOnly P (compiler.resolveChain root chain) := by
  unfold resolveChain
  split
  · exact .fail (hlabels _ (.invalid chain.label))
  · split
    · exact .fail (hlabels _ (.noSteps chain.label))
    · refine .bind (failsOnly_descend hpath hbelow _ _ hroot) fun node? => ?_
      split
      · exact .pure _
      · exact .bind (.note _) fun _ => .pure _

theorem failsOnly_resolveChains (hpath : ∀ e, e.OfPath → P e) (hlabels : ∀ e, e.OfLabels → P e)
    (hbelow : compiler.Below types P) {root : ObjectType} (hroot : types root)
    (chains : List Chain) : FailsOnly P (compiler.resolveChains root chains) := by
  induction chains with
  | nil => exact .pure _
  | cons chain rest ih =>
    exact .bind (failsOnly_resolveChain hpath hlabels hbelow hroot chain) fun _ =>
      .bind ih fun _ => .pure _

theorem failsOnly_resolveSelector (hpath : ∀ e, e.OfPath → P e) (hlabels : ∀ e, e.OfLabels → P e)
    (hbelow : compiler.Below types P) {root : ObjectType} (hroot : types root)
    (selector : Selector) : FailsOnly P (compiler.resolveSelector root selector) :=
  .bind (.ofExcept fun e he => hlabels e (failsOnly_check selector e he)) fun _ =>
    failsOnly_resolveChains hpath hlabels hbelow hroot selector.chains

theorem failsOnly_resolveAll (hbinding : ∀ e, e.OfBinding → P e) (hpath : ∀ e, e.OfPath → P e)
    (hbelow : compiler.Below types P) {root : ObjectType} (hroot : types root)
    (includes : List Include) (state : State) :
    FailsOnly P (compiler.resolveAll root includes state) := by
  induction includes generalizing state with
  | nil => exact .pure _
  | cons inclusion rest ih =>
    exact .bind (failsOnly_follow hbinding hpath hbelow _ _ hroot _) fun _ =>
      .bind (ih _) fun _ => .pure _

theorem failsOnly_rootSelection (hbinding : ∀ e, e.OfBinding → P e)
    (hpath : ∀ e, e.OfPath → P e) (hlabels : ∀ e, e.OfLabels → P e)
    (hbelow : compiler.Below types P) {root : ObjectType} (hroot : types root) (spec : Spec)
    (state : State) : FailsOnly P (compiler.rootSelection spec root state) := by
  have hselection : FailsOnly P (compiler.selection spec root state) := by
    unfold selection
    split
    · rename_i selector hselector
      have hchains := failsOnly_resolveSelector hpath hlabels hbelow hroot selector
      simp only
      split
      · exact .bind (.note _) fun _ => .bind hchains fun _ => .pure _
      · exact .bind hchains fun _ => .pure _
    · exact .bind (failsOnly_resolveAll hbinding hpath hbelow hroot _ _) fun _ => .pure _
  refine .bind hselection fun selected => ?_
  simp only
  split
  · exact .fail (hpath _ (.emptySelection "" root.name))
  · exact .pure _

/-- If the root type is there, the name, the arguments or the selection are at fault. -/
theorem failsOnly_compile (hbinding : ∀ e, e.OfBinding → P e) (hpath : ∀ e, e.OfPath → P e)
    (hlabels : ∀ e, e.OfLabels → P e) (hbelow : compiler.Below types P) {root : ObjectType}
    (hroot : types root) {spec : Spec}
    (hname : Name.isValid (Name.remote spec.name) = false → P (.invalidQuery spec.name))
    (hobject : compiler.registry.object? spec.root = some root) :
    FailsOnly P (compiler.compile spec) := by
  unfold compile
  refine .bind (.note _) fun _ => ?_
  simp only
  split
  · rename_i hinvalid
    exact .fail (hname (by simpa using hinvalid))
  · rw [hobject]
    refine .bind ((failsOnly_bindArguments _ _ _ _ _).mono hbinding) fun bound =>
      .bind (failsOnly_rootSelection hbinding hpath hlabels hbelow hroot spec _) fun selected => ?_
    split
    · exact .bind (.note _) fun _ => .bind (.note _) fun _ => .pure _
    · exact .bind (.note _) fun _ => .pure _

end Compiler

end Query

end PathQuery
