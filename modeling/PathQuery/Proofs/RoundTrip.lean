import PathQuery.Proofs.Dialect
/-!
# Values through JSON and back

Written as JSON and read again, a value is a value still, but it has forgotten what plain JSON has
no words for: the type of an enumeration value, that a text is an identifier, and any float that is
not finite. Nothing else changes, at any depth, so what has been through JSON once can go through it
again and again.
-/

namespace PathQuery.Value

mutual

/-- What is left of a value on its way through JSON. -/
def forget : Value → Value
  | .enumeration _ name => .string name
  | .id s => .string s
  | .float x => if x.isFinite then .float x else .null
  | .list items => .list (forgetItems items)
  | .boolean b => .boolean b
  | .int n => .int n
  | .null => .null
  | .string s => .string s

def forgetItems : List Value → List Value
  | [] => []
  | item :: rest => forget item :: forgetItems rest

end

/-- Neither an enumeration value nor an identifier nor a float that is not finite, at any depth. -/
inductive Lossless : Value → Prop
  | boolean (b : Bool) : Lossless (.boolean b)
  | float {x : Float} (isFinite : x.isFinite = true) : Lossless (.float x)
  | int (n : Int64) : Lossless (.int n)
  | list {items} (each : ∀ item ∈ items, Lossless item) : Lossless (.list items)
  | null : Lossless .null
  | string (s : String) : Lossless (.string s)

theorem forgetItems_eq_map (items : List Value) : forgetItems items = items.map forget := by
  induction items with
  | nil => simp [forgetItems]
  | cons item rest ih => simp [forgetItems, ih]

mutual

theorem lossless_forget : ∀ value : Value, Lossless value.forget
  | .boolean b => .boolean b
  | .enumeration _ name => .string name
  | .float x => by
    rw [forget]
    split
    · rename_i hfinite
      exact .float hfinite
    · exact .null
  | .id s => .string s
  | .int n => .int n
  | .list items => .list (lossless_forgetItems items)
  | .null => .null
  | .string s => .string s

theorem lossless_forgetItems : ∀ items : List Value, ∀ item ∈ forgetItems items, Lossless item
  | [], _, h => by cases h
  | item :: rest, _, h => by
    rcases List.mem_cons.mp h with rfl | h
    · exact lossless_forget item
    · exact lossless_forgetItems rest _ h

end

theorem Lossless.forget_eq {value : Value} (h : Lossless value) : value.forget = value := by
  induction h with
  | boolean b => rfl
  | float hfinite => rw [forget, if_pos hfinite]
  | int n => rfl
  | list each ih => rw [forget, forgetItems_eq_map, List.map_congr_left ih, List.map_id']
  | null => rfl
  | string s => rfl

mutual

theorem mirrors_forget : ∀ value : Value, Mirrors value.toJson value.forget
  | .boolean b => .boolean b
  | .enumeration _ name => .string name
  | .float x => by
    rw [toJson, forget, Binary.isFinite_eq]
    split
    · exact .float x
    · exact .null
  | .id s => .string s
  | .int n => .int n
  | .list items => .list (mirrors_forgetItems items)
  | .null => .null
  | .string s => .string s

theorem mirrors_forgetItems : ∀ items : List Value,
    List.Forall₂ Mirrors (toItems items) (forgetItems items)
  | [] => .nil
  | item :: rest => .cons (mirrors_forget item) (mirrors_forgetItems rest)

end

/-- A value that is written as JSON is read as what is left of it. That is the value itself exactly
if it has nothing to forget, and the second time nothing is lost. -/
theorem ofJson_toJson (value : Value) :
    ofJson value.toJson = .ok value.forget ∧ (value.forget = value ↔ Lossless value) ∧
      ofJson value.forget.toJson = .ok value.forget := by
  have honce (value : Value) : ofJson value.toJson = .ok value.forget :=
    ofJson_eq_ok_iff.mpr (mirrors_forget value)
  refine ⟨honce value, ⟨fun h => h ▸ lossless_forget value, Lossless.forget_eq⟩, ?_⟩
  rw [honce, (lossless_forget value).forget_eq]

example : ofJson (toJson (.list [.enumeration "Mode" "BUS", .list [.id "7"], .int (-1)])) =
    .ok (.list [.string "BUS", .list [.string "7"], .int (-1)]) := by
  rfl

end PathQuery.Value
