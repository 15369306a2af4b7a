import PathQuery.Query.IncludePath
/-!
# Names stay names

A name is respelled for the remote side, and a parameter's name gets a number behind it. Both leave
it a name: the first character of a name is ASCII, so its lower case is one ASCII letter or the
underscore it was, and digits may stand anywhere but in front.
-/

namespace PathQuery.Text

/-- Below the Latin-1 letters only the ASCII capitals change. -/
theorem lowercase_of_lt {c : Char} (h : c.toNat < 0xC0) :
    lowercase c =
      if 0x41 ≤ c.toNat ∧ c.toNat ≤ 0x5A then [Char.ofNat (c.toNat + 32)] else [c] := by
  have hfirst : caseRuns = ⟨0x41, 0x5A, 1, 32⟩ :: caseRuns.tail := rfl
  have hrest : caseRuns.tail.find? (·.covers c.toNat) = none := by
    have hbound : ∀ run ∈ caseRuns.tail, 0xC0 ≤ run.first := by decide +kernel
    rw [List.find?_eq_none]
    intro run hrun hcovers
    have hle := hbound run hrun
    simp only [CaseRun.covers, Bool.and_eq_true, decide_eq_true_eq] at hcovers
    omega
  rw [lowercase, if_neg (by omega), hfirst, List.find?_cons, hrest]
  by_cases hupper : 0x41 ≤ c.toNat ∧ c.toNat ≤ 0x5A
  · have hcovers : CaseRun.covers ⟨0x41, 0x5A, 1, 32⟩ c.toNat = true := by
      simp [CaseRun.covers, hupper, Nat.mod_one]
    rw [hcovers, if_pos hupper]
    congr 2
  · have hcovers : CaseRun.covers ⟨0x41, 0x5A, 1, 32⟩ c.toNat = false := by
      simp only [CaseRun.covers, Bool.and_eq_false_iff, decide_eq_false_iff_not]
      omega
    rw [hcovers, if_neg hupper]

end PathQuery.Text

namespace PathQuery.Name

theorem isValid_ofList_cons_iff {first : Char} {rest : List Char} :
    isValid (String.ofList (first :: rest)) = true ↔
      isStart first = true ∧ rest.all isPart = true := by
  simp [isValid]

theorem exists_of_isValid {name : String} (h : isValid name = true) :
    ∃ first rest, name = String.ofList (first :: rest) ∧ isStart first = true ∧
      rest.all isPart = true := by
  cases hname : name.toList with
  | nil => simp [isValid, hname] at h
  | cons first rest =>
    obtain rfl : name = String.ofList (first :: rest) := by rw [← hname, String.ofList_toList]
    exact ⟨first, rest, rfl, isValid_ofList_cons_iff.mp h⟩

theorem toNat_lt_of_isStart {c : Char} (h : isStart c = true) : c.toNat < 128 := by
  have hranges : (c == '_' || (decide ('A'.val ≤ c.val ∧ c.val ≤ 'Z'.val) ||
      (decide ('a'.val ≤ c.val) && decide (c.val ≤ 'z'.val)))) = true := h
  simp only [Bool.or_eq_true, beq_iff_eq, Bool.and_eq_true, decide_eq_true_eq,
    UInt32.le_iff_toNat_le] at hranges
  rcases hranges with rfl | h | h
  · decide
  · exact Nat.lt_of_le_of_lt h.2 (by decide)
  · exact Nat.lt_of_le_of_lt h.2 (by decide)

/-- What holds of all ASCII characters that can start a name holds of all that can. -/
theorem forall_isStart {P : Char → Prop}
    (h : ∀ n < 128, isStart (Char.ofNat n) = true → P (Char.ofNat n)) :
    ∀ c, isStart c = true → P c := by
  intro c hc
  have hlt := toNat_lt_of_isStart hc
  rw [← Char.ofNat_toNat c] at hc ⊢
  exact h c.toNat hlt hc

theorem isStart_toLower : ∀ c, isStart c = true → isStart c.toLower = true :=
  forall_isStart (by decide)

theorem lowercase_eq_toLower {c : Char} (h : isStart c = true) :
    Text.lowercase c = [c.toLower] := by
  have hascii : ∀ c, isStart c = true →
      (if 0x41 ≤ c.toNat ∧ c.toNat ≤ 0x5A then [Char.ofNat (c.toNat + 32)] else [c]) =
        [c.toLower] := forall_isStart (by decide)
  have hlt := toNat_lt_of_isStart h
  rw [Text.lowercase_of_lt (by omega), hascii c h]

theorem remote_ofList (first : Char) (rest : List Char) :
    remote (String.ofList (first :: rest)) = String.ofList (Text.lowercase first ++ rest) := by
  simp [remote]

/-- The remote spelling of a name has its first character in ASCII lower case. -/
theorem remote_of_isStart {first : Char} (h : isStart first = true) (rest : List Char) :
    remote (String.ofList (first :: rest)) = String.ofList (first.toLower :: rest) := by
  rw [remote_ofList, lowercase_eq_toLower h]
  rfl

/-- The remote spelling of a name is a name. -/
theorem isValid_remote {name : String} (h : isValid name = true) :
    isValid (remote name) = true := by
  obtain ⟨first, rest, rfl, hfirst, hrest⟩ := exists_of_isValid h
  rw [remote_of_isStart hfirst]
  exact isValid_ofList_cons_iff.mpr ⟨isStart_toLower first hfirst, hrest⟩

/-- A name that the remote side spells in another way starts with a capital. -/
theorem exists_capital_of_remote_ne {name : String} (h : isValid name = true)
    (hne : remote name ≠ name) :
    ∃ first rest, name = String.ofList (first :: rest) ∧ first.toNat ≤ 0x5A ∧
      remote name = String.ofList (Char.ofNat (first.toNat + 32) :: rest) := by
  obtain ⟨first, rest, rfl, hfirst, -⟩ := exists_of_isValid h
  have hlt := toNat_lt_of_isStart hfirst
  rw [remote_ofList, Text.lowercase_of_lt (by omega)] at hne
  by_cases hupper : 0x41 ≤ first.toNat ∧ first.toNat ≤ 0x5A
  · refine ⟨first, rest, rfl, hupper.2, ?_⟩
    rw [remote_ofList, Text.lowercase_of_lt (by omega), if_pos hupper]
    rfl
  · rw [if_neg hupper] at hne
    exact absurd rfl hne

/-- Among names that the remote side spells in another way, the spelling tells them apart. -/
theorem eq_of_remote_eq {name other : String} (h : isValid name = true)
    (hother : isValid other = true) (hremote : remote name = remote other)
    (hne : remote name ≠ name) (hother_ne : remote other ≠ other) : name = other := by
  have htoNat : ∀ n ≤ 0x5A, (Char.ofNat (n + 32)).toNat = n + 32 := by decide
  obtain ⟨first, rest, rfl, hfirst, hspelled⟩ := exists_capital_of_remote_ne h hne
  obtain ⟨first', rest', rfl, hfirst', hspelled'⟩ := exists_capital_of_remote_ne hother hother_ne
  rw [hspelled, hspelled', String.ofList_inj, List.cons.injEq] at hremote
  obtain ⟨hlower, rfl⟩ := hremote
  have hsame := congrArg Char.toNat hlower
  rw [htoNat _ hfirst, htoNat _ hfirst'] at hsame
  rw [Char.toNat_inj.mp (Nat.add_right_cancel hsame)]

theorem dot_not_mem_of_isValid {name : String} (h : isValid name = true) :
    '.' ∉ name.toList := by
  obtain ⟨first, rest, rfl, hfirst, hrest⟩ := exists_of_isValid h
  rw [String.toList_ofList, List.mem_cons, not_or]
  constructor
  · rintro rfl
    contradiction
  · intro hdot
    have hpart := List.all_eq_true.mp hrest '.' hdot
    contradiction

theorem isValid_append {name suffix : String} (h : isValid name = true)
    (hsuffix : suffix.toList.all isPart = true) : isValid (name ++ suffix) = true := by
  obtain ⟨first, rest, rfl, hfirst, hrest⟩ := exists_of_isValid h
  simp [isValid, hfirst, hrest, hsuffix]

/-- The variable of a parameter has a name. -/
theorem isValid_positioned {parameter : String} (h : isValid parameter = true) (position : Nat) :
    isValid (Query.positioned position parameter) = true := by
  apply isValid_append h
  rw [Nat.toString_eq_repr, Nat.toList_repr, List.all_eq_true]
  intro c hc
  rw [isPart, Nat.isDigit_of_mem_toDigits (by decide) (by decide) hc, Bool.or_true]

end PathQuery.Name
