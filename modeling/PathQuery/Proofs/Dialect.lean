import Mathlib.Data.List.Forall2
import PathQuery.Proofs.JsonWriter
import PathQuery.Proofs.Rounding
import PathQuery.Value.Json
/-!
# The dialect of values

Which JSON stands for a value, and for which one. Everything but objects stands for itself; an
object stands for an enumeration value or for an identifier and has to be tagged as one of them,
with no entry besides. Arrays are gone through in order and objects are not entered, so what is
refused is the first untagged object among those that are reached through arrays alone.
-/

namespace PathQuery

namespace Json

mutual

/-- The objects that are reached through arrays alone, in order. -/
def objects : Json → List (List (String × Json))
  | .array items => itemsObjects items
  | .object entries => [entries]
  | .null | .bool _ | .number _ | .string _ => []

def itemsObjects : List Json → List (List (String × Json))
  | [] => []
  | item :: rest => objects item ++ itemsObjects rest

end

theorem mem_of_text?_eq_some {key s : String} {entries : List (String × Json)}
    (h : text? key entries = some s) : (key, .string s) ∈ entries := by
  unfold text? at h
  split at h
  · rename_i t hfound
    obtain rfl : t = s := Option.some.inj h
    obtain ⟨entry, hfind, hsecond⟩ := Option.map_eq_some_iff.mp hfound
    have hkey : entry.1 = key := by simpa using List.find?_some hfind
    rw [← hkey, ← hsecond]
    exact List.mem_of_find?_eq_some hfind
  · cases h

end Json

namespace Value

/-- The entries of a tagged object and the value they stand for. -/
inductive Tags : List (String × Json) → Value → Prop
  | enumeration (type name : String) :
      Tags [("enum", .string type), ("value", .string name)] (.enumeration type name)
  | swapped (type name : String) :
      Tags [("value", .string name), ("enum", .string type)] (.enumeration type name)
  | id (text : String) : Tags [("id", .string text)] (.id text)

/-- JSON and the value it stands for. A whole number beyond the range of `Int64` is the float
nearest to it. -/
inductive Mirrors : Json → Value → Prop
  | null : Mirrors .null .null
  | boolean (b : Bool) : Mirrors (.bool b) (.boolean b)
  | int (n : Int64) : Mirrors (.number (.int n.toInt)) (.int n)
  | beyond {n : Int} (outside : n < Int64.minValue.toInt ∨ Int64.maxValue.toInt < n) :
      Mirrors (.number (.int n)) (.float (Float.ofInt n))
  | float (x : Float) : Mirrors (.number (.float x)) (.float x)
  | string (s : String) : Mirrors (.string s) (.string s)
  | list {items values} (each : List.Forall₂ Mirrors items values) :
      Mirrors (.array items) (.list values)
  | tagged {entries value} (tags : Tags entries value) : Mirrors (.object entries) value

/-! ### Objects and numbers -/

theorem ofEntries?_eq_some_iff {entries : List (String × Json)} {value : Value} :
    ofEntries? entries = some value ↔ Tags entries value := by
  constructor
  · intro h
    unfold ofEntries? at h
    split at h
    · -- Two different keys fill two entries.
      rename_i type name henum hvalue hid hlength
      obtain rfl := Option.some.inj h
      obtain ⟨first, second, rfl⟩ := List.length_eq_two.mp hlength
      have htype := Json.mem_of_text?_eq_some henum
      have hname := Json.mem_of_text?_eq_some hvalue
      simp only [List.mem_cons, List.not_mem_nil, or_false] at htype hname
      rcases htype with rfl | rfl <;> rcases hname with hname | hname
      · simp at hname
      · exact hname ▸ .enumeration type name
      · exact hname ▸ .swapped type name
      · simp at hname
    · rename_i text henum hvalue hid hlength
      obtain rfl := Option.some.inj h
      obtain ⟨first, rfl⟩ := List.length_eq_one_iff.mp hlength
      have htext := Json.mem_of_text?_eq_some hid
      obtain rfl := List.mem_singleton.mp htext
      exact .id text
    · cases h
  · rintro (⟨type, name⟩ | ⟨type, name⟩ | ⟨text⟩) <;> rfl

theorem fitsInt_iff {n : Int} :
    fitsInt n = true ↔ Int64.minValue.toInt ≤ n ∧ n ≤ Int64.maxValue.toInt := by
  simp [fitsInt]

theorem fitsInt_toInt (n : Int64) : fitsInt n.toInt = true :=
  fitsInt_iff.mpr ⟨Int64.minValue_le_toInt n, Int64.toInt_le n⟩

theorem ofNumber_int_of_fits {n : Int} (h : fitsInt n = true) :
    ofNumber (.int n) = .int (Int64.ofInt n) :=
  if_pos h

theorem ofNumber_int_of_not_fits {n : Int} (h : fitsInt n = false) :
    ofNumber (.int n) = .float (Float.ofInt n) := by
  have hbig : 2 ^ 53 ≤ n.natAbs := by
    have hrange := mt fitsInt_iff.mpr (Bool.eq_false_iff.mp h)
    rw [show Int64.minValue.toInt = -9223372036854775808 from rfl,
      show Int64.maxValue.toInt = 9223372036854775807 from rfl] at hrange
    omega
  rw [ofNumber, if_neg (Bool.eq_false_iff.mp h), Binary.nearest_eq_ofInt hbig]

theorem ofNumber_eq_iff {number : Json.Number} {value : Value} :
    ofNumber number = value ↔ Mirrors (.number number) value := by
  cases number with
  | float x =>
    constructor
    · rintro rfl
      exact .float x
    · intro h
      cases h with
      | float x => rfl
  | int n =>
    constructor
    · rintro rfl
      cases h : fitsInt n with
      | true =>
        obtain ⟨hlow, hhigh⟩ := fitsInt_iff.mp h
        have hback : (Int64.ofInt n).toInt = n :=
          Int64.toInt_ofInt_of_le hlow (Int.lt_of_le_of_lt hhigh (by decide))
        rw [ofNumber_int_of_fits h]
        have hint := Mirrors.int (Int64.ofInt n)
        rwa [hback] at hint
      | false =>
        rw [ofNumber_int_of_not_fits h]
        have hrange := mt fitsInt_iff.mpr (Bool.eq_false_iff.mp h)
        exact .beyond (by omega)
    · intro h
      cases h with
      | int n => rw [ofNumber_int_of_fits (fitsInt_toInt n), Int64.ofInt_toInt]
      | beyond houtside =>
        apply ofNumber_int_of_not_fits
        rw [Bool.eq_false_iff, Ne, fitsInt_iff]
        omega

/-! ### The first untagged object -/

/-- How a reading ends if the given object is the first untagged one. -/
inductive Judged {α : Type} : Except Json α → Option (List (String × Json)) → Prop
  | read (a : α) : Judged (.ok a) none
  | refused (entries : List (String × Json)) : Judged (.error (.object entries)) (some entries)

theorem Judged.bind {α β : Type} {x : Except Json α} {f : α → Except Json β}
    {first second : Option (List (String × Json))} (hx : Judged x first)
    (hf : ∀ a, Judged (f a) second) : Judged (x >>= f) (first.or second) := by
  cases hx with
  | read a => exact hf a
  | refused entries => exact .refused entries

theorem Judged.map {α β : Type} {x : Except Json α} {first : Option (List (String × Json))}
    (hx : Judged x first) (f : α → β) : Judged (x.map f) first := by
  cases hx with
  | read a => exact .read (f a)
  | refused entries => exact .refused entries

def untagged (entries : List (String × Json)) : Bool := (ofEntries? entries).isNone

theorem untagged_eq_true_iff {entries : List (String × Json)} :
    untagged entries = true ↔ ∀ value, ¬ Tags entries value := by
  simp only [untagged, Option.isNone_iff_eq_none, Option.eq_none_iff_forall_ne_some,
    ne_eq, ofEntries?_eq_some_iff]

theorem untagged_eq_false_iff {entries : List (String × Json)} :
    untagged entries = false ↔ ∃ value, Tags entries value := by
  rw [← Bool.not_eq_true, untagged_eq_true_iff]
  simp

mutual

theorem judged_ofJson : ∀ json : Json, Judged (ofJson json) (json.objects.find? untagged)
  | .null => .read _
  | .bool _ => .read _
  | .number _ => .read _
  | .string _ => .read _
  | .array items => (judged_ofItems items).map list
  | .object entries => by
    rw [ofJson, Json.objects, List.find?_singleton, untagged]
    cases ofEntries? entries with
    | none => exact .refused entries
    | some value => exact .read value

theorem judged_ofItems : ∀ items : List Json,
    Judged (ofItems items) ((Json.itemsObjects items).find? untagged)
  | [] => .read []
  | item :: rest => by
    rw [ofItems, Json.itemsObjects, List.find?_append]
    refine (judged_ofJson item).bind fun value => ?_
    rw [← Option.or_none (o := (Json.itemsObjects rest).find? untagged)]
    exact (judged_ofItems rest).bind fun values => .read _

end

mutual

theorem ofJson_eq_ok_iff : ∀ {json : Json} {value : Value},
    ofJson json = .ok value ↔ Mirrors json value
  | .null, value => by
    rw [ofJson, Except.ok.injEq]
    exact ⟨fun h => h ▸ .null, fun h => by cases h; rfl⟩
  | .bool b, value => by
    rw [ofJson, Except.ok.injEq]
    exact ⟨fun h => h ▸ .boolean b, fun h => by cases h; rfl⟩
  | .number n, value => by rw [ofJson, Except.ok.injEq, ofNumber_eq_iff]
  | .string s, value => by
    rw [ofJson, Except.ok.injEq]
    exact ⟨fun h => h ▸ .string s, fun h => by cases h; rfl⟩
  | .array items, value => by
    have hlist : ofJson (.array items) = .ok value ↔
        ∃ values, ofItems items = .ok values ∧ .list values = value := by
      rw [ofJson]
      cases ofItems items <;> simp [Except.map]
    simp only [hlist, ofItems_eq_ok_iff]
    constructor
    · rintro ⟨values, heach, rfl⟩
      exact .list heach
    · intro h
      cases h with
      | list heach => exact ⟨_, heach, rfl⟩
  | .object entries, value => by
    have hvalue : ofJson (.object entries) = .ok value ↔ ofEntries? entries = some value := by
      rw [ofJson]
      cases ofEntries? entries <;> simp
    rw [hvalue, ofEntries?_eq_some_iff]
    exact ⟨.tagged, fun h => by cases h; assumption⟩

theorem ofItems_eq_ok_iff : ∀ {items : List Json} {values : List Value},
    ofItems items = .ok values ↔ List.Forall₂ Mirrors items values
  | [], values => by
    rw [ofItems, Except.ok.injEq, List.forall₂_nil_left_iff, eq_comm]
  | item :: rest, values => by
    have hcons : ofItems (item :: rest) = .ok values ↔ ∃ value, ofJson item = .ok value ∧
        ∃ others, ofItems rest = .ok others ∧ value :: others = values := by
      rw [ofItems]
      cases ofJson item <;> cases ofItems rest <;> simp [bind, Except.bind, pure, Except.pure]
    simp only [hcons, ofJson_eq_ok_iff, ofItems_eq_ok_iff, List.forall₂_cons_left_iff]
    constructor
    · rintro ⟨value, hvalue, others, hothers, rfl⟩
      exact ⟨value, others, hvalue, hothers, rfl⟩
    · rintro ⟨value, others, hvalue, hothers, rfl⟩
      exact ⟨value, hvalue, others, hothers, rfl⟩

end

/-! ### Acceptance and refusal -/

theorem Judged.eq_error_iff {α : Type} {x : Except Json α}
    {first : Option (List (String × Json))} (hx : Judged x first) {object : Json} :
    x = .error object ↔ ∃ entries, first = some entries ∧ object = .object entries := by
  cases hx with
  | read a => simp
  | refused entries => simp [eq_comm]

theorem Judged.exists_ok_iff {α : Type} {x : Except Json α}
    {first : Option (List (String × Json))} (hx : Judged x first) :
    (∃ a, x = .ok a) ↔ first = none := by
  cases hx with
  | read a => simp
  | refused entries => simp

/-- What a JSON value is read as, when it is read, and what is refused when it is not: the first of
its objects that is not tagged. What is said about it quotes its compact text, which is JSON and
stands for it. -/
theorem ofJson_judges (json : Json) :
    (∀ value, ofJson json = .ok value ↔ Mirrors json value) ∧
    ((∃ value, ofJson json = .ok value) ↔
      ∀ entries ∈ json.objects, ∃ value, Tags entries value) ∧
    (∀ object, ofJson json = .error object ↔ ∃ front entries back,
      json.objects = front ++ entries :: back ∧
      (∀ earlier ∈ front, ∃ value, Tags earlier value) ∧ (∀ value, ¬ Tags entries value) ∧
      object = .object entries) ∧
    ∀ object, ofJson json = .error object →
      refusal object = "Unsupported JSON object `" ++ object.compact ++ "`: " ++
        "expected `\x7b\"enum\": .., \"value\": ..\x7d` or `\x7b\"id\": ..\x7d`" ∧
      ∀ float, Json.Recovers float object.floats →
        Json.Grammar.Denotes float object.compact object := by
  have hjudged := judged_ofJson json
  refine ⟨fun value => ofJson_eq_ok_iff, ?_, fun object => ?_,
    fun object _ => ⟨rfl, fun float hfloats => Json.denotes_compact hfloats⟩⟩
  · rw [hjudged.exists_ok_iff, List.find?_eq_none]
    simp only [Bool.not_eq_true, untagged_eq_false_iff]
  · simp only [hjudged.eq_error_iff, List.find?_eq_some_iff_append, Bool.not_eq_true',
      untagged_eq_true_iff, untagged_eq_false_iff]
    constructor
    · rintro ⟨entries, ⟨hentries, front, back, hobjects, hfront⟩, hobject⟩
      exact ⟨front, entries, back, hobjects, hfront, hentries, hobject⟩
    · rintro ⟨front, entries, back, hobjects, hfront, hentries, hobject⟩
      exact ⟨entries, ⟨hentries, front, back, hobjects, hfront⟩, hobject⟩

example : ofJson (.array [.object [("id", .string "7")], .array [.object [("id", .null)]],
      .object [("enum", .string "Mode")]]) =
    .error (.object [("id", .null)]) := by
  rfl

end Value

end PathQuery
