import PathQuery.Proofs.BoundVariables
import PathQuery.Proofs.Consumption
/-!
# Following a path only appends

Each level of a path remembers how many variables there were before it, lets the levels below
declare theirs, and may cut the table back to what it remembers. Since all that a level does to the
table is to append to it, the size a level remembers is never beyond the table's end, and cutting
back to it restores the table (`Declares.take_size`). The cursor is not cut back: it moves along the
scan, by one call for each segment at most, and stays in front of some call or behind the last.
-/

namespace PathQuery

/-- Only what is done with the results that can come matters. -/
theorem Logged.bind_congr_of_ok {ν ε α β : Type} {x : Logged ν ε α} {f g : α → Logged ν ε β}
    (h : ∀ a, x.result = .ok a → f a = g a) : x >>= f = x >>= g := by
  obtain ⟨notes, error | a⟩ := x
  · rfl
  · show Logged.mk (notes ++ (f a).notes) (f a).result = ⟨notes ++ (g a).notes, (g a).result⟩
    rw [h a rfl]

namespace Query

open Schema (Field ObjectType)
open Selection (Binding Node)

/-! ### The calls that are still to come -/

/-- The cursor is at a position among the calls, and those behind it are still to come. -/
structure Cursor.Within (calls : List RelationCall) (cursor : Cursor) : Prop where
  consumed_le : cursor.consumed ≤ calls.length
  pending_eq : cursor.pending = calls.drop cursor.consumed

namespace Cursor

variable {calls : List RelationCall}

theorem Within.eq_before {cursor : Cursor} (h : cursor.Within calls) :
    cursor = .before calls cursor.consumed := by
  rw [before, ← h.pending_eq]

theorem within_before {position : Nat} (h : position ≤ calls.length) :
    (before calls position).Within calls := ⟨h, rfl⟩

end Cursor

/-! ### One path -/

theorem Declares.size_le {names : ScalarNames} {before after : State} {nodes : List Node}
    (h : Declares names before after nodes) : before.declared.size ≤ after.declared.size := by
  obtain ⟨added, hadded, -, -⟩ := h.exists_added
  rw [Variables.size, Variables.size, hadded, List.length_append]
  exact Nat.le_add_right _ _

/-- What some segments do to the state: the variables that were declared stay in front, all of them
and no others if nothing is selected, and no more calls are consumed than there are segments. -/
structure Appends (segments : List String) (before after : State) (nodes : List Node) : Prop where
  declared_kept : before.declared.toList <+: after.declared.toList
  length_le_one : segments ≠ [] → nodes.length ≤ 1
  declared_eq : nodes = [] → after.declared = before.declared
  le_consumed : before.cursor.consumed ≤ after.cursor.consumed
  consumed_le : after.cursor.consumed ≤ before.cursor.consumed + segments.length

namespace Compiler

variable {compiler : Compiler} {calls : List RelationCall}

theorem Follows.length_le_one {segments : List String} {type : ObjectType} {state after : State}
    {nodes : List Node} (h : Follows compiler segments type state nodes after)
    (hne : segments ≠ []) : nodes.length ≤ 1 := by
  cases h with
  | stop => contradiction
  | leaf => exact Nat.le_refl 1
  | branch => exact Nat.le_refl 1
  | omitted => exact Nat.zero_le 1

theorem Follows.appends {segments : List String} {type : ObjectType} {state after : State}
    {nodes : List Node} (h : Follows compiler segments type state nodes after)
    (hwithin : state.cursor.Within calls) : Appends segments state after nodes := by
  have hdeclares := h.declares
  obtain ⟨added, hadded, hnames, -⟩ := hdeclares.exists_added
  obtain ⟨hlength, hcursor, -⟩ := h.scans hwithin.eq_before
  have hle := scan_le_add calls state.cursor.consumed (compiler.registry.visited segments type)
  rw [hlength] at hle
  refine ⟨⟨added, hadded.symm⟩, h.length_le_one, ?_, ?_, ?_⟩
  · rintro rfl
    -- Nothing is bound, so nothing has been added.
    obtain rfl : added = [] := List.map_eq_nil_iff.mp hnames
    exact Variables.ext (by rw [hadded, List.append_nil])
  · rw [hcursor]
    exact le_scan calls _ _
  · rw [hcursor]
    exact hle

theorem Follows.within {segments : List String} {type : ObjectType} {state after : State}
    {nodes : List Node} (h : Follows compiler segments type state nodes after)
    (hwithin : state.cursor.Within calls) : after.cursor.Within calls := by
  rw [(h.scans hwithin.eq_before).cursor_eq]
  exact Cursor.within_before (scan_le_length hwithin.consumed_le _)

theorem within_of_bindField {field : Field} {state bound : State} {bindings : List Binding}
    (h : (compiler.bindField field state).result = .ok (bindings, bound))
    (hwithin : state.cursor.Within calls) : bound.cursor.Within calls := by
  rw [(given_of_bindField h hwithin.eq_before).2]
  exact Cursor.within_before (step_le_length hwithin.consumed_le field)

/-! ### Whole compilations -/

/-- The states that a compilation can come to: variables are declared for arguments, a field is
bound on the way along a path, and a path is followed to its end. -/
inductive Reaches (compiler : Compiler) (includes : List Include) : State → Prop
  | start : Reaches compiler includes (.start includes)
  | declare {rename onNull arguments state bindings declared}
      (reached : Reaches compiler includes state)
      (bind : (bindArguments compiler.settings.scalarNames rename onNull arguments
        state.declared).result = .ok (bindings, declared)) :
      Reaches compiler includes ⟨state.cursor, declared⟩
  | bind {field state bindings bound} (reached : Reaches compiler includes state)
      (bind : (compiler.bindField field state).result = .ok (bindings, bound)) :
      Reaches compiler includes bound
  | follow {path segments type state nodes after} (reached : Reaches compiler includes state)
      (follow : (compiler.follow path segments type state).result = .ok (nodes, after)) :
      Reaches compiler includes after

namespace Reaches

variable {includes : List Include}

theorem within {state : State} (h : Reaches compiler includes state) :
    state.cursor.Within (includes.flatMap Include.calls) := by
  induction h with
  | start => exact Cursor.within_before (Nat.zero_le _)
  | declare reached bind ih => exact ih
  | bind reached bind ih => exact within_of_bindField bind ih
  | follow reached follow ih => exact (follow_eq_ok_iff.mp follow).within ih

theorem resolveAll {root : ObjectType} {others : List Include} {state after : State}
    {nodes : List Node} (h : Reaches compiler includes state)
    (hnodes : (compiler.resolveAll root others state).result = .ok (nodes, after)) :
    Reaches compiler includes after := by
  induction others generalizing state nodes with
  | nil =>
    obtain ⟨-, rfl⟩ := resolveAll_nil_eq_ok_iff.mp hnodes
    exact h
  | cons inclusion rest ih =>
    obtain ⟨first, between, more, hfirst, hmore, -⟩ := resolveAll_cons_eq_ok_iff.mp hnodes
    have hbetween : (compiler.follow inclusion.path (Path.segments inclusion.path) root
        state).result = .ok (first, between) := follow_eq_ok_iff.mpr hfirst
    exact ih (h.follow hbetween) hmore

theorem rootSelection {spec : Spec} {root : ObjectType} {state after : State} {nodes : List Node}
    (h : Reaches compiler includes state)
    (hnodes : (compiler.rootSelection spec root state).result = .ok (nodes, after)) :
    Reaches compiler includes after := by
  have hselection := (rootSelection_eq_ok_iff.mp hnodes).1
  cases hselector : spec.selector with
  | none =>
    obtain ⟨included, hincluded, -⟩ := (selection_eq_ok_iff_of_includes hselector).mp hselection
    exact h.resolveAll hincluded
  | some selector =>
    obtain ⟨-, -, rfl⟩ := (selection_eq_ok_iff_of_selector hselector).mp hselection
    exact h

end Reaches

/-! ### Cutting back -/

/-- The table is never cut back to more than it holds. -/
theorem follow_cutting_eq {cut : Nat → State → Compilation State}
    (hcut : ∀ size (current : State), size ≤ current.declared.size →
      cut size current = dropBeyond size current)
    (path : String) (segments : List String) (type : ObjectType) (state : State) :
    compiler.follow path segments type state cut = compiler.follow path segments type state := by
  induction segments generalizing type state with
  | nil => rfl
  | cons segment rest ih =>
    unfold follow
    split
    · rfl
    · cases type.field? segment with
      | none => rfl
      | some field =>
        refine Logged.bind_congr_of_ok fun bound hbind => bind_congr fun _ => ?_
        split
        · rfl
        · refine bind_congr fun child => ?_
          rw [ih child bound.2]
          refine Logged.bind_congr_of_ok fun below hbelow => bind_congr fun node? => ?_
          have hgrown := ((declares_of_bindField hbind).trans
            (follow_eq_ok_iff.mp hbelow).declares).size_le
          cases node? with
          | some node => rfl
          | none =>
            show (cut state.declared.size below.2 >>= fun kept => return ([], kept)) = _
            rw [hcut _ _ hgrown]

/-- Whatever state a compilation has come to, following a path from it only appends: the declared
variables stay in front of the new ones, a path with a segment selects one node at most, and where
it selects none the variables are those from before. The cursor never goes back, nor further than
there are segments, nor beyond the last call, so that the calls it leaves are a slice of all calls.
The variables are only ever cut back to a number of them that there is. -/
theorem follow_only_appends {includes : List Include} {state : State}
    (hreached : Reaches compiler includes state) :
    state.cursor.Within (includes.flatMap Include.calls) ∧
    (∀ path segments type nodes after,
      (compiler.follow path segments type state).result = .ok (nodes, after) →
        Appends segments state after nodes ∧
        after.cursor.Within (includes.flatMap Include.calls)) ∧
    (∀ root path nodes after, (compiler.resolve root path state).result = .ok (nodes, after) →
      nodes.length ≤ 1 ∧ Appends (Path.segments path) state after nodes ∧
        after.cursor.Within (includes.flatMap Include.calls)) ∧
    (∀ spec root nodes after,
      (compiler.rootSelection spec root state).result = .ok (nodes, after) →
        after.cursor.Within (includes.flatMap Include.calls)) ∧
    ∀ cut : Nat → State → Compilation State,
      (∀ size current, size ≤ current.declared.size →
        cut size current = dropBeyond size current) →
      ∀ path segments type, compiler.follow path segments type state cut =
        compiler.follow path segments type state := by
  have hwithin := hreached.within
  refine ⟨hwithin, fun path segments type nodes after hfollow => ?_,
    fun root path nodes after hresolve => ?_, fun spec root nodes after hselection => ?_,
    fun cut hcut path segments type => follow_cutting_eq hcut path segments type state⟩
  · have hfollows := follow_eq_ok_iff.mp hfollow
    exact ⟨hfollows.appends hwithin, hfollows.within hwithin⟩
  · have hfollows := follow_eq_ok_iff.mp hresolve
    exact ⟨hfollows.length_le_one (Path.segments_ne_nil path), hfollows.appends hwithin,
      hfollows.within hwithin⟩
  · exact (hreached.rootSelection hselection).within

end Compiler

end Query

namespace Transit

open Query

/-- A compiler that leaves out what nothing is selected of. -/
def omitting : Compiler := ⟨registry, { emptySelection := .omit }⟩

/-- Behind the alerts: they are left out with their variable, but their call stays consumed. -/
def behindAlerts : State := ⟨⟨1, (spec.includes.flatMap Include.calls).drop 1⟩, ∅⟩

/-- The trips then take the second call, and to check the size before cutting back changes
nothing. -/
theorem follow_only_appends_of_trips :
    omitting.Reaches spec.includes behindAlerts ∧
    ∃ nodes after, (omitting.follow "trips" ["trips"] route behindAlerts).result =
        .ok (nodes, after) ∧
      after.declared.names = ["serviceDate2"] ∧ Appends ["trips"] behindAlerts after nodes ∧
      after.cursor.Within (spec.includes.flatMap Include.calls) ∧
      omitting.follow "trips" ["trips"] route behindAlerts (fun size current =>
        if size ≤ current.declared.size then Compiler.dropBeyond size current
        else Logged.fail .noChains) =
        omitting.follow "trips" ["trips"] route behindAlerts := by
  have hreached : omitting.Reaches spec.includes behindAlerts :=
    .follow .start (rfl : (omitting.follow "alerts" ["alerts"] route
      (.start spec.includes)).result = .ok ([], behindAlerts))
  have htrips : (omitting.follow "trips" ["trips"] route behindAlerts).result = .ok _ := rfl
  obtain ⟨-, hfollow, -, -, hcut⟩ := Compiler.follow_only_appends hreached
  obtain ⟨happends, hwithin⟩ := hfollow _ _ _ _ _ htrips
  exact ⟨hreached, _, _, htrips, rfl, happends, hwithin, hcut _ (fun _ _ h => if_pos h) _ _ _⟩

end Transit

end PathQuery
