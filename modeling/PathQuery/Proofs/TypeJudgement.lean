import PathQuery.Proofs.TypeNames
/-!
# The type of a value as a judgement

The type of a list is found by taking its first element that is not null and comparing the others
with it. The judgement it comes to knows no first element: a list has the type of lists of `u` if
some element is not null and every one that is not has the type `u`. From this order-free reading
(`typeName?_list_eq_some_iff`) it follows that neither the order of elements nor the nulls among
them matter, however deep inside a value they stand.
-/

namespace PathQuery.Value

/-- What it means for a value to have a type. Null has none. -/
inductive HasType (names : ScalarNames) : Value → String → Prop
  | scalar {value : Value} {kind : Scalar} (scalar?_eq : value.scalar? = some kind) :
      HasType names value (names.get kind)
  | enumeration {type name : String} : HasType names (.enumeration type name) type
  | list {items : List Value} {element : String} (live : ∃ item ∈ items, item ≠ .null)
      (typed : ∀ item ∈ items, item ≠ .null → HasType names item element) :
      HasType names (.list items) ("[" ++ element ++ "]")

/-- The types are compared with the first one, but it is no other than the rest. -/
theorem common?_eq_some_iff {types : List (Option String)} {type : String} :
    common? types = some type ↔ some type ∈ types ∧ ∀ type? ∈ types, type? = some type := by
  constructor
  · intro h
    refine ⟨mem_of_common? h, ?_⟩
    unfold common? at h
    split at h
    · rename_i first rest
      split at h
      · rename_i hrest
        obtain rfl := Option.some.inj h
        exact List.forall_mem_cons.mpr ⟨rfl, by simpa using hrest⟩
      · contradiction
    · contradiction
  · rintro ⟨hmem, hall⟩
    cases types with
    | nil => contradiction
    | cons first rest =>
      obtain ⟨rfl, hrest⟩ := List.forall_mem_cons.mp hall
      exact if_pos (by simpa using hrest)

variable {names : ScalarNames}

theorem mem_elementTypes_iff {items : List Value} {type? : Option String} :
    type? ∈ elementTypes names items ↔
      ∃ item ∈ items, item ≠ .null ∧ item.typeName? names = type? := by
  simp only [elementTypes_eq_map, List.mem_map, List.mem_filter, Bool.not_eq_true',
    ← Bool.not_eq_true, isNull_eq_true_iff, and_assoc]

/-- When a list has a type, without regard to the order of its elements. -/
theorem typeName?_list_eq_some_iff {items : List Value} {type : String} :
    typeName? names (.list items) = some type ↔
      ∃ element, type = listOf element ∧ (∃ item ∈ items, item ≠ .null) ∧
        ∀ item ∈ items, item ≠ .null → item.typeName? names = some element := by
  rw [typeName?, Option.map_eq_some_iff]
  simp only [common?_eq_some_iff, mem_elementTypes_iff]
  constructor
  · rintro ⟨element, ⟨⟨item, hitem, hlive, -⟩, htyped⟩, rfl⟩
    exact ⟨element, rfl, ⟨item, hitem, hlive⟩, fun other hother hotherLive =>
      htyped _ ⟨other, hother, hotherLive, rfl⟩⟩
  · rintro ⟨element, rfl, ⟨item, hitem, hlive⟩, htyped⟩
    refine ⟨element, ⟨⟨item, hitem, hlive, htyped item hitem hlive⟩, ?_⟩, rfl⟩
    rintro _ ⟨other, hother, hotherLive, rfl⟩
    exact htyped other hother hotherLive

/-! ### The judgement -/

mutual

theorem hasType_of_typeName? : ∀ {value : Value} {type : String},
    value.typeName? names = some type → HasType names value type
  | .enumeration _ _, _, h => Option.some.inj h ▸ .enumeration
  | .list items, _, h => by
    obtain ⟨element, rfl, hlive, htyped⟩ := typeName?_list_eq_some_iff.mp h
    exact .list hlive fun item hitem hnull =>
      hasType_of_mem items item hitem (htyped item hitem hnull)
  | .null, _, h => by contradiction
  | .boolean _, _, h => Option.some.inj h ▸ .scalar rfl
  | .float _, _, h => Option.some.inj h ▸ .scalar rfl
  | .id _, _, h => Option.some.inj h ▸ .scalar rfl
  | .int _, _, h => Option.some.inj h ▸ .scalar rfl
  | .string _, _, h => Option.some.inj h ▸ .scalar rfl

theorem hasType_of_mem : ∀ (items : List Value), ∀ item ∈ items, ∀ {type : String},
    item.typeName? names = some type → HasType names item type
  | [] => by simp
  | _ :: rest => List.forall_mem_cons.mpr ⟨hasType_of_typeName?, hasType_of_mem rest⟩

end

theorem typeName?_of_scalar? {value : Value} {kind : Scalar} (h : value.scalar? = some kind) :
    value.typeName? names = some (names.get kind) := by
  cases value with
  | enumeration | list | null => contradiction
  | boolean | float | id | int | string =>
    obtain rfl := Option.some.inj h
    rfl

theorem HasType.typeName?_eq {value : Value} {type : String} (h : HasType names value type) :
    value.typeName? names = some type := by
  induction h with
  | scalar scalar?_eq => exact typeName?_of_scalar? scalar?_eq
  | enumeration => rfl
  | list live typed ih => exact typeName?_list_eq_some_iff.mpr ⟨_, rfl, live, ih⟩

/-! ### What does not matter -/

/-- The one value comes from the other by reordering the elements of lists and by putting nulls into
lists or taking them out, anywhere inside it. -/
inductive Rearranged : Value → Value → Prop
  | refl (value : Value) : Rearranged value value
  | symm {value other : Value} (h : Rearranged value other) : Rearranged other value
  | trans {value between other : Value} (first : Rearranged value between)
      (second : Rearranged between other) : Rearranged value other
  | perm {items others : List Value} (h : items.Perm others) :
      Rearranged (.list items) (.list others)
  | insertNull (front back : List Value) :
      Rearranged (.list (front ++ back)) (.list (front ++ .null :: back))
  | element (front back : List Value) {item other : Value} (h : Rearranged item other) :
      Rearranged (.list (front ++ item :: back)) (.list (front ++ other :: back))

/-- A list keeps its type if it holds the same types of elements that are not null. -/
theorem typeName?_list_congr {items others : List Value}
    (h : ∀ type?, type? ∈ elementTypes names items ↔ type? ∈ elementTypes names others) :
    typeName? names (.list items) = typeName? names (.list others) := by
  have hcommon : common? (elementTypes names items) = common? (elementTypes names others) := by
    apply Option.ext
    intro type
    simp only [common?_eq_some_iff, h]
  rw [typeName?, typeName?, hcommon]

theorem Rearranged.typeName?_eq {value other : Value} (h : Rearranged value other) :
    (value = .null ↔ other = .null) ∧ value.typeName? names = other.typeName? names := by
  induction h with
  | refl value => exact ⟨Iff.rfl, rfl⟩
  | symm h ih => exact ⟨ih.1.symm, ih.2.symm⟩
  | trans first second ihFirst ihSecond =>
    exact ⟨ihFirst.1.trans ihSecond.1, ihFirst.2.trans ihSecond.2⟩
  | perm h =>
    refine ⟨by simp, typeName?_list_congr fun type? => ?_⟩
    simp only [mem_elementTypes_iff, h.mem_iff]
  | insertNull front back =>
    refine ⟨by simp, typeName?_list_congr fun type? => ?_⟩
    simp only [mem_elementTypes_iff, List.mem_append, List.mem_cons]
    grind
  | element front back h ih =>
    refine ⟨by simp, typeName?_list_congr fun type? => ?_⟩
    simp only [mem_elementTypes_iff, List.mem_append, List.mem_cons]
    grind

/-- The type that is found is the one the judgement gives, and none is found where the judgement
gives none: for null, for lists without elements other than null, for lists with an element that has
no type or with two of different types. Rearranging a value does not change its type. -/
theorem typeName?_iff_hasType (names : ScalarNames) :
    (∀ value type, value.typeName? names = some type ↔ HasType names value type) ∧
    typeName? names .null = none ∧
    (∀ items : List Value, (∀ item ∈ items, item = .null) → typeName? names (.list items) = none) ∧
    (∀ items : List Value, ∀ item ∈ items, item ≠ .null → item.typeName? names = none →
      typeName? names (.list items) = none) ∧
    (∀ items : List Value, ∀ item ∈ items, ∀ other ∈ items, item ≠ .null → other ≠ .null →
      item.typeName? names ≠ other.typeName? names → typeName? names (.list items) = none) ∧
    ∀ value other, Rearranged value other → value.typeName? names = other.typeName? names := by
  have hnone : ∀ items : List Value, (∀ element, (∃ item ∈ items, item ≠ .null) →
      (∀ item ∈ items, item ≠ .null → item.typeName? names = some element) → False) →
      typeName? names (.list items) = none := by
    intro items hfalse
    rw [Option.eq_none_iff_forall_ne_some]
    intro type htype
    obtain ⟨element, -, hlive, htyped⟩ := typeName?_list_eq_some_iff.mp htype
    exact hfalse element hlive htyped
  refine ⟨fun value type => ⟨hasType_of_typeName?, HasType.typeName?_eq⟩, by simp [typeName?], ?_,
    ?_, ?_, fun value other h => h.typeName?_eq.2⟩
  · intro items hnull
    apply hnone
    rintro element ⟨item, hitem, hlive⟩ -
    exact hlive (hnull item hitem)
  · intro items item hitem hlive huntyped
    apply hnone
    intro element _ htyped
    rw [htyped item hitem hlive] at huntyped
    contradiction
  · intro items item hitem other hother hlive hotherLive hdiffer
    apply hnone
    intro element _ htyped
    exact hdiffer ((htyped item hitem hlive).trans (htyped other hother hotherLive).symm)

/-- Stops by zone, with a zone that has none and one that is not known. -/
theorem typeName?_iff_hasType_of_zones :
    HasType .standard (.list [.null, .list [.int 2, .null], .list [.int 1, .int 3]]) "[[Int]]" ∧
      typeName? .standard (.list [.list [.int 3, .int 1], .list [.int 2]]) = some "[[Int]]" ∧
      typeName? .standard (.list [.list [.int 1], .list [.null]]) = none := by
  obtain ⟨hiff, -, -, huntyped, -, hrearranged⟩ := typeName?_iff_hasType .standard
  have hzones : HasType .standard (.list [.null, .list [.int 2, .null], .list [.int 1, .int 3]])
      "[[Int]]" := (hiff _ _).mp (by decide)
  refine ⟨hzones, ?_, huntyped _ (.list [.null]) (by simp) (by simp) (by decide)⟩
  rw [← (hiff _ _).mpr hzones]
  apply hrearranged
  have hinner : Rearranged (.list [.int 3, .int 1]) (.list [.int 1, .int 3]) :=
    .perm (.swap _ _ _)
  have hnull : Rearranged (.list [.int 2]) (.list [.int 2, .null]) := .insertNull [.int 2] []
  exact (((Rearranged.element [] [.list [.int 2]] hinner).trans
    (.element [.list [.int 1, .int 3]] [] hnull)).trans (.perm (.swap _ _ _))).trans
      (.insertNull [] _)

end PathQuery.Value
