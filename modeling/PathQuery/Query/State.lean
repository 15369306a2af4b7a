import PathQuery.Query.Spec
/-!
# The state of one compilation

Two things are carried along while a query is compiled. The cursor walks over the relation calls of
all includes, strictly from left to right and never back. The variables are those declared so far,
no name twice; a part of the query that is dropped takes its variables with it.
-/

namespace PathQuery.Query

/-- The calls that are still to come, and how many have been consumed. -/
structure Cursor where
  consumed : Nat
  pending : List RelationCall

namespace Cursor

def ofIncludes (includes : List Include) : Cursor := ⟨0, includes.flatMap Include.calls⟩

def peek? (cursor : Cursor) : Option RelationCall := cursor.pending.head?

/-- Consume the next call. Past the last one nothing happens. -/
def advance (cursor : Cursor) : Cursor :=
  match cursor.pending with
  | [] => cursor
  | _ :: rest => ⟨cursor.consumed + 1, rest⟩

end Cursor

/-- A variable with the type it is declared with and the value it is bound to. -/
structure Variable where
  name : String
  type : String
  value : Value

def Variable.text (v : Variable) : String := "$" ++ v.name ++ ": " ++ v.type

/-- Variables in order of declaration. -/
@[ext] structure Variables where
  toList : List Variable
  nodup_names : (toList.map Variable.name).Nodup

namespace Variables

def empty : Variables := ⟨[], List.nodup_nil⟩

instance : EmptyCollection Variables := ⟨empty⟩

instance : Inhabited Variables := ⟨empty⟩

def names (vs : Variables) : List String := vs.toList.map Variable.name

def size (vs : Variables) : Nat := vs.toList.length

/-- One more variable, under a name that is still free. -/
def push (vs : Variables) (v : Variable) (h : v.name ∉ vs.names) : Variables where
  toList := vs.toList ++ [v]
  nodup_names := by
    rw [List.map_append, List.nodup_append]
    refine ⟨vs.nodup_names, by simp, ?_⟩
    intro a ha b hb e
    rw [List.map_singleton, List.mem_singleton] at hb
    exact h (hb ▸ e ▸ ha)

/-- The first `n` variables. -/
def take (vs : Variables) (n : Nat) : Variables where
  toList := vs.toList.take n
  nodup_names := by
    rw [List.map_take]
    exact vs.nodup_names.sublist (List.take_sublist _ _)

@[simp] theorem toList_empty : (∅ : Variables).toList = [] := rfl

@[simp] theorem toList_push (vs : Variables) (v : Variable) (h : v.name ∉ vs.names) :
    (vs.push v h).toList = vs.toList ++ [v] := rfl

@[simp] theorem toList_take (vs : Variables) (n : Nat) :
    (vs.take n).toList = vs.toList.take n := rfl

theorem take_size (vs : Variables) : vs.take vs.size = vs := by
  apply Variables.ext
  simp [size]

end Variables

structure State where
  cursor : Cursor
  declared : Variables

namespace State

def start (includes : List Include) : State := ⟨Cursor.ofIncludes includes, ∅⟩

end State

end PathQuery.Query
