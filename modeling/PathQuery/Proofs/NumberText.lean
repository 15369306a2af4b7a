import PathQuery.Proofs.JsonGrammar
/-!
# Written numbers are number literals

The text of a whole number has no zero in front. The text of a finite float has a point or an
exponent, so nobody takes it for the text of a whole number: digits are only ever followed by zeros
where a point comes next, and the shortest decimal of a float other than zero is not zero, because
zero does not lie in the neighbourhood of such a float.
-/

namespace PathQuery

/-! ### Digits -/

theorem head?_eq_of_front {digits more : List Char} (hfront : digits <+: more)
    (hne : digits ≠ []) : digits.head? = more.head? := by
  obtain ⟨rest, rfl⟩ := hfront
  obtain ⟨first, others, rfl⟩ := List.exists_cons_of_ne_nil hne
  rfl

theorem isNumeral_toDigits (n : Nat) : IsNumeral (Nat.toDigits 10 n) :=
  ⟨Nat.toDigits_ne_nil, fun _ => Nat.isDigit_of_mem_toDigits (by decide) (by decide)⟩

theorem head?_toDigits_ne_zero {n : Nat} (h : n ≠ 0) : (Nat.toDigits 10 n).head? ≠ some '0' := by
  induction n using Nat.strongRecOn with
  | ind n ih =>
    rw [Nat.toDigits_eq_if (by decide)]
    split
    · simpa using h
    · have hhead := ih (n / 10) (by omega) (by omega)
      rwa [head?_eq_of_front (List.prefix_append _ _) Nat.toDigits_ne_nil] at hhead

theorem isWhole_toDigits (n : Nat) : IsWhole (Nat.toDigits 10 n) := by
  refine ⟨isNumeral_toDigits n, fun hleading => ?_⟩
  by_cases h : n = 0
  · rw [h, Nat.toDigits_zero]
  · exact absurd hleading (head?_toDigits_ne_zero h)

theorem IsWhole.of_head?_ne {digits : List Char} (h : IsNumeral digits)
    (hhead : digits.head? ≠ some '0') : IsWhole digits :=
  ⟨h, fun hzero => absurd hzero hhead⟩

theorem IsNumeral.of_front {digits more : List Char} (h : IsNumeral more)
    (hfront : digits <+: more) (hne : digits ≠ []) : IsNumeral digits :=
  ⟨hne, fun c hc => h.isDigit c (hfront.subset hc)⟩

namespace IsNumeral

variable {digits : List Char} (h : IsNumeral digits)

include h

theorem append_zeros (count : Nat) : IsNumeral (digits ++ List.replicate count '0') := by
  refine ⟨by simp [h.nonempty], fun c hc => ?_⟩
  rcases List.mem_append.mp hc with hc | hc
  · exact h.isDigit c hc
  · rw [List.eq_of_mem_replicate hc]
    decide

theorem zeros_append (count : Nat) : IsNumeral (List.replicate count '0' ++ digits) := by
  refine ⟨by simp [h.nonempty], fun c hc => (h.append_zeros count).isDigit c ?_⟩
  rw [List.mem_append] at hc ⊢
  exact hc.symm

end IsNumeral

/-! ### Numbers without their sign -/

namespace Json.Grammar

/-- With or without a minus in front, the text is a literal that is no whole number. -/
def SpellsFloat (magnitude : List Char) : Prop :=
  ∀ negative : Bool, ∃ literal : Literal,
    Numbers ((if negative then ['-'] else []) ++ magnitude) literal ∧ literal.isInteger = false

theorem SpellsFloat.of_fraction {whole digits scaled : List Char} {exponent : Option Int}
    (hwhole : IsWhole whole) (hdigits : IsNumeral digits)
    (hexponents : Exponents scaled exponent) :
    SpellsFloat (whole ++ ('.' :: digits ++ scaled)) :=
  fun negative => ⟨_, .literal negative hwhole (.some hdigits) hexponents, rfl⟩

theorem SpellsFloat.of_exponent {whole scaled : List Char} {exponent : Int}
    (hwhole : IsWhole whole) (hexponents : Exponents scaled (some exponent)) :
    SpellsFloat (whole ++ scaled) :=
  fun negative => ⟨_, .literal negative hwhole .none hexponents, rfl⟩

/-- The exponent as it is written, always with a sign. -/
theorem exists_exponents (exponent : Int) :
    ∃ e, Exponents ('e' :: (if exponent < 0 then '-' else '+') ::
      Nat.toDigits 10 exponent.natAbs) (some e) := by
  have hdigits := isNumeral_toDigits exponent.natAbs
  split
  · exact ⟨_, .some (.inl rfl) .minus hdigits⟩
  · exact ⟨_, .some (.inl rfl) .plus hdigits⟩

/-- A whole number has neither a point nor an exponent. -/
theorem numbers_intChars (n : Int) :
    Numbers (intChars n) ⟨decide (n < 0), Nat.toDigits 10 n.natAbs, none, none⟩ := by
  have hnumbers := Numbers.literal (decide (n < 0)) (isWhole_toDigits n.natAbs) .none .none
  by_cases h : n < 0 <;> simpa [intChars, h] using hnumbers

theorem value_intChars (float : Literal → Float) (n : Int) :
    Literal.value float ⟨decide (n < 0), Nat.toDigits 10 n.natAbs, none, none⟩ = .int n := by
  have hdigits : Decimal.digitsValue (Nat.toDigits 10 n.natAbs) = n.natAbs :=
    Nat.ofDigitChars_ten_toDigits
  simp only [Literal.value, Literal.isInteger, Option.isNone_none, Bool.and_self, if_true, hdigits,
    decide_eq_true_eq]
  congr 1
  split <;> omega

end Json.Grammar

/-! ### The shortest decimal of a float -/

namespace Binary

theorem power_pos {base n : Nat} (hbase : 0 < base) (hn : 0 < n) (exponent : Int) :
    0 < (power base n exponent).1 ∧ 0 < (power base n exponent).2 := by
  cases exponent with
  | ofNat e => exact ⟨Nat.mul_pos hn (Nat.pow_pos hbase), Nat.one_pos⟩
  | negSucc e => exact ⟨hn, Nat.pow_pos hbase⟩

end Binary

namespace Decimal

open Binary

namespace Neighbourhood

theorem of_pos {mantissa : Nat} (h : mantissa ≠ 0) (exponent : Int) :
    0 < (of mantissa exponent).low ∧ 0 < (of mantissa exponent).high := by
  have hscale := (power_pos Nat.two_pos Nat.one_pos (exponent - 2)).1
  refine ⟨Nat.mul_pos ?_ hscale, Nat.mul_pos (by omega) hscale⟩
  split <;> omega

theorem contains_zero {range : Neighbourhood} (hlow : 0 < range.low) (hhigh : 0 < range.high)
    {d : Nat} (hd : 0 < d) : range.contains 0 d = false := by
  have hbelow := Nat.mul_pos hlow hd
  have habove := Nat.mul_pos hhigh hd
  simp only [contains, Nat.zero_mul, Bool.or_eq_false_iff, Bool.and_eq_false_iff,
    decide_eq_false_iff_not, beq_eq_false_iff_ne]
  exact ⟨.inl (by omega), .inr ⟨by omega, by omega⟩⟩

theorem digits_of_onGrid? {range : Neighbourhood} (hlow : 0 < range.low) (hhigh : 0 < range.high)
    {exponent : Int} {decimal : Decimal} (h : range.onGrid? exponent = some decimal) :
    decimal.digits ≠ 0 := by
  have hpart := (power_pos (Nat.succ_pos 9) Nat.one_pos exponent).2
  simp only [onGrid?] at h
  generalize power 10 1 exponent = grid at h hpart
  generalize range.value * grid.2 / (range.unit * grid.1) = k at h
  have hne (hbelow : range.contains (k * grid.1) grid.2 = true) : k ≠ 0 := by
    rintro rfl
    rw [Nat.zero_mul, contains_zero hlow hhigh hpart] at hbelow
    exact Bool.false_ne_true hbelow
  split at h
  · rename_i hboth
    rw [Bool.and_eq_true] at hboth
    split at h <;> obtain rfl := Option.some.inj h
    · exact hne hboth.1
    · exact Nat.succ_ne_zero k
  split at h
  · rename_i hbelow
    obtain rfl := Option.some.inj h
    exact hne hbelow
  split at h
  · obtain rfl := Option.some.inj h
    exact Nat.succ_ne_zero k
  · cases h

end Neighbourhood

theorem digits_shortest {mantissa : Nat} (h : mantissa ≠ 0) (exponent : Int) :
    (shortest mantissa exponent).digits ≠ 0 ∨ shortest mantissa exponent = ⟨0, 0⟩ := by
  obtain ⟨hlow, hhigh⟩ := Neighbourhood.of_pos h exponent
  simp only [shortest]
  cases hfound : (List.range 17).findSome? fun count : Nat =>
      (Neighbourhood.of mantissa exponent).onGrid?
        ((Neighbourhood.of mantissa exponent).decade - count) with
  | none => exact .inr rfl
  | some decimal =>
    obtain ⟨count, -, hgrid⟩ := List.exists_of_findSome?_eq_some hfound
    exact .inl (Neighbourhood.digits_of_onGrid? hlow hhigh hgrid)

/-! ### The layout of the digits -/

theorem significant_spec {n : Nat} (h : n ≠ 0) :
    IsNumeral (significant n).1 ∧ (significant n).1.head? ≠ some '0' := by
  have hhead := head?_toDigits_ne_zero h
  have hfront : (significant n).1 <+: Nat.toDigits 10 n := by
    rw [← List.reverse_suffix]
    simpa [significant] using List.dropWhile_suffix (· == '0')
  have hne : (significant n).1 ≠ [] := by
    intro hnil
    have hdropped : (Nat.toDigits 10 n).reverse.dropWhile (· == '0') = [] := by
      simpa [significant] using hnil
    have hzeros : ∀ c ∈ Nat.toDigits 10 n, c = '0' := by
      have hall := List.all_takeWhile (p := (· == '0')) (l := (Nat.toDigits 10 n).reverse)
      have hsplit := List.takeWhile_append_dropWhile (p := (· == '0'))
        (l := (Nat.toDigits 10 n).reverse)
      rw [hdropped, List.append_nil] at hsplit
      rw [hsplit] at hall
      simpa using hall
    obtain ⟨first, others, hdigits⟩ := List.exists_cons_of_ne_nil (isNumeral_toDigits n).nonempty
    rw [hdigits] at hhead hzeros
    exact hhead (congrArg some (hzeros first List.mem_cons_self))
  exact ⟨(isNumeral_toDigits n).of_front hfront hne, head?_eq_of_front hfront hne ▸ hhead⟩

open Json.Grammar (SpellsFloat)

section Layout

variable {digits : List Char} (hdigits : IsNumeral digits) (hhead : digits.head? ≠ some '0')

include hdigits hhead

theorem spellsFloat_pointed {count : Nat} (hcount : 0 < count) :
    SpellsFloat (pointed digits count) := by
  rw [pointed]
  split
  · have hzeros := hdigits.append_zeros (count - digits.length)
    have hleading := head?_eq_of_front (List.prefix_append digits
      (List.replicate (count - digits.length) '0')) hdigits.nonempty
    have hwhole := IsWhole.of_head?_ne hzeros (hleading ▸ hhead)
    exact .of_fraction hwhole (isNumeral_toDigits 0) .none
  · rename_i hlong
    have hfront : digits.take count ≠ [] := by
      simp only [ne_eq, List.take_eq_nil_iff, hdigits.nonempty, or_false]
      omega
    have hback : digits.drop count ≠ [] := by
      rw [ne_eq, List.drop_eq_nil_iff]
      exact hlong
    have hleading := head?_eq_of_front (List.take_prefix count digits) hfront
    have hwhole : IsWhole (digits.take count) :=
      .of_head?_ne (hdigits.of_front (List.take_prefix count digits) hfront) (hleading ▸ hhead)
    have hfraction : IsNumeral (digits.drop count) :=
      ⟨hback, fun c hc => hdigits.isDigit c (List.mem_of_mem_drop hc)⟩
    have hspells := SpellsFloat.of_fraction hwhole hfraction .none
    rwa [List.append_nil] at hspells

theorem spellsFloat_layout (exponent : Int) : SpellsFloat (layout digits exponent) := by
  unfold layout
  split
  · exact spellsFloat_pointed hdigits hhead (Nat.succ_pos _)
  split
  · have hspells := SpellsFloat.of_fraction (isWhole_toDigits 0)
      (hdigits.zeros_append (-exponent - 1).toNat) .none
    rwa [List.append_nil] at hspells
  · obtain ⟨e, hexponent⟩ := Json.Grammar.exists_exponents exponent
    have hfirst (first : Char) (others : List Char) (heq : digits = first :: others) :
        IsWhole [first] := by
      subst heq
      exact .of_head?_ne (hdigits.of_front ⟨others, rfl⟩ (List.cons_ne_nil first [])) hhead
    match digits, hdigits, hfirst with
    | [], hdigits, _ => exact absurd rfl hdigits.nonempty
    | [first], _, hfirst => exact .of_exponent (hfirst first [] rfl) hexponent
    | first :: second :: others, hdigits, hfirst =>
      have hfraction : IsNumeral (second :: others) :=
        ⟨List.cons_ne_nil _ _, fun c hc => hdigits.isDigit c (List.mem_cons_of_mem _ hc)⟩
      exact .of_fraction (hfirst first _ rfl) hfraction hexponent

end Layout

theorem spellsFloat_magnitudeText (mantissa : Nat) (exponent : Int) :
    SpellsFloat (magnitudeText mantissa exponent) := by
  have hzero : SpellsFloat ['0', '.', '0'] :=
    .of_fraction (isWhole_toDigits 0) (isNumeral_toDigits 0) .none
  rw [magnitudeText]
  split
  · exact hzero
  · rename_i hmantissa
    rcases digits_shortest hmantissa exponent with hdigits | hdefault
    · obtain ⟨hnumeral, hhead⟩ := significant_spec hdigits
      exact spellsFloat_layout hnumeral hhead _
    · rw [hdefault]
      exact hzero

/-- A finite float is spelled as a literal that is no whole number. -/
theorem numbers_text {x : Float} (h : isFinite x = true) :
    ∃ literal : Json.Literal, Json.Grammar.Numbers (text x).toList literal ∧
      literal.isInteger = false := by
  rw [text]
  cases hparts : parts x with
  | notANumber => simp [isFinite, hparts] at h
  | infinite negative => simp [isFinite, hparts] at h
  | finite negative mantissa exponent =>
    simpa only [String.toList_ofList] using spellsFloat_magnitudeText mantissa exponent negative

end Decimal

end PathQuery
