import PathQuery.Proofs.Compilation
import PathQuery.Proofs.Faults
import PathQuery.Proofs.Naming
/-!
# Which names a query can have

The name of a query is checked in its remote spelling. Respelling moves a single character, and what
is no name does not become one that way, with one exception: the only character beyond ASCII with an
ASCII letter for its lower case is the Kelvin sign. So names are kept, nothing is refused that is a
name, and what is accepted besides names starts with that sign.
-/

namespace PathQuery.Text

/-- KELVIN SIGN, which looks like a capital K. -/
def kelvin : Char := Char.ofNat 0x212A

theorem lowercase_kelvin : lowercase kelvin = ['k'] := rfl

/-- Lower case is a single character, but for that of the dotted capital I. -/
theorem lowercase_eq_singleton (c : Char) :
    lowercase c = ['i', Char.ofNat 0x307] ∨ ∃ lower, lowercase c = [lower] := by
  unfold lowercase
  split
  · exact .inl rfl
  · split
    · exact .inr ⟨_, rfl⟩
    · exact .inr ⟨_, rfl⟩

/-- Beyond ASCII, a run other than that of the Kelvin sign stays beyond ASCII. -/
theorem run_beyond_ascii : ∀ run ∈ caseRuns.tail,
    (run.first = 0x212A ∧ run.last = 0x212A) ∨ 0x80 ≤ run.first + run.shift := by
  decide +kernel

/-- Beyond ASCII, all characters but the Kelvin sign stay there in lower case. -/
theorem lowercase_beyond_ascii {c lower : Char} (hc : 0xC0 ≤ c.toNat) (h : lowercase c = [lower]) :
    c = kelvin ∨ ∃ code, 128 ≤ code ∧ lower = Char.ofNat code := by
  unfold lowercase at h
  split at h
  · simp at h
  · split at h
    · rename_i run hrun
      rw [List.singleton_inj] at h
      have hcovers := List.find?_some hrun
      simp only [CaseRun.covers, Bool.and_eq_true, decide_eq_true_eq] at hcovers
      have hmem : run ∈ caseRuns.tail := by
        -- The run of the ASCII capitals ends before the character.
        rcases List.mem_cons.mp (List.mem_of_find?_eq_some hrun) with rfl | hmem
        · have hle : c.toNat ≤ 0x5A := hcovers.1.2
          omega
        · exact hmem
      rcases run_beyond_ascii run hmem with ⟨hfirst, hlast⟩ | hshift
      · left
        have hcode : c.toNat = 0x212A := by omega
        rw [← Char.ofNat_toNat c, hcode]
        rfl
      · exact .inr ⟨_, by omega, h.symm⟩
    · rw [List.singleton_inj] at h
      exact .inr ⟨c.toNat, by omega, by rw [Char.ofNat_toNat, h]⟩

end PathQuery.Text

namespace PathQuery.Name

open Text (kelvin)

theorem toLower_toLower : ∀ c, isStart c = true → c.toLower.toLower = c.toLower :=
  forall_isStart (by decide)

theorem utf8Size_toLower : ∀ c, isStart c = true → c.toLower.utf8Size = c.utf8Size :=
  forall_isStart (by decide)

/-- A code that no character has stands for the null character, which starts no name either. -/
theorem not_isStart_of_ofNat {n : Nat} (h : 128 ≤ n) : isStart (Char.ofNat n) = false := by
  by_cases hvalid : n.isValidChar
  · have hcode : (Char.ofNat n).toNat = n := by
      rw [Char.ofNat, dif_pos hvalid]
      rfl
    rw [Bool.eq_false_iff]
    intro hstart
    have hlt := toNat_lt_of_isStart hstart
    omega
  · rw [Char.ofNat, dif_neg hvalid]
    rfl

/-- Only the Kelvin sign comes to start a name by going to lower case. -/
theorem isStart_or_eq_kelvin {c lower : Char} (h : Text.lowercase c = [lower])
    (hlower : isStart lower = true) : isStart c = true ∨ c = kelvin := by
  by_cases hlt : c.toNat < 0xC0
  · left
    rw [Text.lowercase_of_lt hlt] at h
    by_cases hupper : 0x41 ≤ c.toNat ∧ c.toNat ≤ 0x5A
    · have hcapitals : ∀ n ≤ 0x5A, 0x41 ≤ n → isStart (Char.ofNat n) = true := by decide
      rw [← Char.ofNat_toNat c]
      exact hcapitals c.toNat hupper.2 hupper.1
    · rw [if_neg hupper, List.singleton_inj] at h
      rwa [h]
  · right
    refine (Text.lowercase_beyond_ascii (by omega) h).resolve_right ?_
    rintro ⟨code, hcode, rfl⟩
    rw [not_isStart_of_ofNat hcode] at hlower
    contradiction

/-- A Kelvin sign, with what can stand behind the first character of a name. -/
def KelvinLed (name : String) : Prop :=
  ∃ rest, name = String.ofList (kelvin :: rest) ∧ rest.all isPart = true

theorem remote_kelvin (rest : List Char) :
    remote (String.ofList (kelvin :: rest)) = String.ofList ('k' :: rest) := by
  rw [remote_ofList, Text.lowercase_kelvin]
  rfl

theorem isValid_remote_iff (name : String) :
    isValid (remote name) = true ↔ isValid name = true ∨ KelvinLed name := by
  constructor
  · intro h
    cases hname : name.toList with
    | nil => simp [remote, hname, isValid] at h
    | cons first rest =>
      obtain rfl : name = String.ofList (first :: rest) := by rw [← hname, String.ofList_toList]
      rw [remote_ofList] at h
      rcases Text.lowercase_eq_singleton first with hlower | ⟨lower, hlower⟩
      · -- The combining dot is no part of a name.
        rw [hlower, List.cons_append, List.singleton_append] at h
        have hrest := (isValid_ofList_cons_iff.mp h).2
        rw [List.all_cons, Bool.and_eq_true] at hrest
        have hdot := hrest.1
        contradiction
      · rw [hlower] at h
        obtain ⟨hstart, hrest⟩ := isValid_ofList_cons_iff.mp h
        rcases isStart_or_eq_kelvin hlower hstart with hfirst | rfl
        · exact .inl (isValid_ofList_cons_iff.mpr ⟨hfirst, hrest⟩)
        · exact .inr ⟨rest, rfl, hrest⟩
  · rintro (h | ⟨rest, rfl, hrest⟩)
    · exact isValid_remote h
    · rw [remote_kelvin]
      exact isValid_ofList_cons_iff.mpr ⟨rfl, hrest⟩

/-- Whatever has a name for its remote spelling gets it by a change of its first character, and it
does not change again. -/
theorem exists_respelled_of_isValid_remote {name : String} (h : isValid (remote name) = true) :
    ∃ first lower rest, name = String.ofList (first :: rest) ∧
      remote name = String.ofList (lower :: rest) ∧ isStart lower = true ∧
      lower.toLower = lower := by
  rcases (isValid_remote_iff name).mp h with hname | ⟨rest, rfl, -⟩
  · obtain ⟨first, rest, rfl, hfirst, -⟩ := exists_of_isValid hname
    exact ⟨first, first.toLower, rest, rfl, remote_of_isStart hfirst rest,
      isStart_toLower first hfirst, toLower_toLower first hfirst⟩
  · exact ⟨kelvin, 'k', rest, rfl, remote_kelvin rest, rfl, rfl⟩

end PathQuery.Name

namespace PathQuery.Query.Compiler

open Name (KelvinLed)
open Text (kelvin)

/-- Nothing but the name of the query is ever reported as such. -/
theorem failsOnly_of_name (compiler : Compiler) {spec : Spec}
    (hname : Name.isValid (Name.remote spec.name) = true) :
    Logged.FailsOnly (fun e => ∀ refused, e ≠ .invalidQuery refused) (compiler.compile spec) := by
  cases hroot : compiler.registry.object? spec.root with
  | none =>
    have hmissing : (compiler.compile spec).result = .error (.undefinedType spec.root) := by
      simp [compile, hname, hroot]
      rfl
    rintro e he refused rfl
    rw [hmissing] at he
    cases he
  | some root =>
    refine failsOnly_compile ?_ ?_ ?_ (Below.of_any ?_) trivial ?_ hroot
    · rintro _ (_ | _ | _) _ ⟨⟩
    · rintro _ (_ | _ | _ | _) _ ⟨⟩
    · rintro _ (_ | _ | _ | _) _ ⟨⟩
    · rintro _ _ ⟨⟩
    · intro hinvalid
      rw [hname] at hinvalid
      contradiction

theorem compile_eq_invalidQuery_iff {compiler : Compiler} {spec : Spec} {refused : String} :
    (compiler.compile spec).result = .error (.invalidQuery refused) ↔
      refused = spec.name ∧ Name.isValid (Name.remote spec.name) = false := by
  cases hname : Name.isValid (Name.remote spec.name) with
  | true =>
    refine ⟨fun h => ?_, by simp⟩
    exact absurd rfl (compiler.failsOnly_of_name hname _ h refused)
  | false =>
    have hrefused : (compiler.compile spec).result = .error (.invalidQuery spec.name) := by
      simp [compile, hname]
      rfl
    rw [hrefused]
    simp [eq_comm]

/-- The remote spelling of a text is a name if the text is one, or starts with a Kelvin sign in the
place of a letter. Such a spelling is as long as the text, has its tail and is its own remote
spelling; that of a name differs from it in the case of the first letter at most. Whatever the
registry and the settings, a query is refused for its name if that is neither of the two. -/
theorem invalidQuery_iff_not_name :
    (∀ name, Name.isValid (Name.remote name) = true ↔
      Name.isValid name = true ∨ KelvinLed name) ∧
    (∀ name, Name.isValid (Name.remote name) = true →
      (Name.remote name).length = name.length ∧
      (Name.remote name).toList.tail = name.toList.tail ∧
      Name.remote (Name.remote name) = Name.remote name) ∧
    (∀ name, Name.isValid name = true →
      (Name.remote name).utf8ByteSize = name.utf8ByteSize ∧
      ∃ first rest, name = String.ofList (first :: rest) ∧
        Name.remote name = String.ofList (first.toLower :: rest)) ∧
    (∀ rest, Name.remote (String.ofList (kelvin :: rest)) = String.ofList ('k' :: rest)) ∧
    ∀ (compiler : Compiler) (spec : Spec) (refused : String),
      (compiler.compile spec).result = .error (.invalidQuery refused) ↔
        refused = spec.name ∧ Name.isValid spec.name = false ∧ ¬KelvinLed spec.name := by
  refine ⟨Name.isValid_remote_iff, fun name h => ?_, fun name h => ?_, Name.remote_kelvin,
    fun compiler spec refused => ?_⟩
  · obtain ⟨first, lower, rest, rfl, hremote, hstart, hstable⟩ :=
      Name.exists_respelled_of_isValid_remote h
    rw [hremote]
    refine ⟨by simp, by simp, ?_⟩
    rw [Name.remote_of_isStart hstart, hstable]
  · obtain ⟨first, rest, rfl, hfirst, -⟩ := Name.exists_of_isValid h
    have hremote := Name.remote_of_isStart hfirst rest
    refine ⟨?_, first, rest, rfl, hremote⟩
    rw [hremote, String.ofList_cons, String.ofList_cons, String.utf8ByteSize_append,
      String.utf8ByteSize_append, String.utf8ByteSize_singleton, String.utf8ByteSize_singleton,
      Name.utf8Size_toLower first hfirst]
  · rw [compile_eq_invalidQuery_iff, ← Bool.not_eq_true, Name.isValid_remote_iff, not_or,
      Bool.not_eq_true]

end PathQuery.Query.Compiler

namespace PathQuery.Transit

open Query

/-- Trips, under a word that a Kelvin sign starts. -/
def kilometers : Spec where
  name := "\u212Ailometers"
  root := "Trip"

/-- A name is respelled once, and neither it nor what a Kelvin sign starts is refused. -/
theorem invalidQuery_iff_not_name_of_kilometers :
    Name.isValid "Route" = true ∧ Name.remote (Name.remote "Route") = Name.remote "Route" ∧
    (Name.remote "Route").utf8ByteSize = "Route".utf8ByteSize ∧
    Name.isValid (Name.remote kilometers.name) = true ∧
    (Name.remote kilometers.name).length = kilometers.name.length ∧
    (∀ refused, (compiler.compile spec).result ≠ .error (.invalidQuery refused)) ∧
    ∀ refused, (compiler.compile kilometers).result ≠ .error (.invalidQuery refused) := by
  obtain ⟨hvalid, hshape, hnames, -, hrefused⟩ := Compiler.invalidQuery_iff_not_name
  have hroute : Name.isValid "Route" = true := by decide
  have hkelvin : Name.KelvinLed kilometers.name := ⟨"ilometers".toList, rfl, rfl⟩
  have hremote := (hvalid kilometers.name).mpr (.inr hkelvin)
  refine ⟨hroute, (hshape "Route" ((hvalid "Route").mpr (.inl hroute))).2.2,
    (hnames "Route" hroute).1, hremote, (hshape _ hremote).1, fun refused h => ?_,
    fun refused h => ?_⟩
  · have hinvalid : Name.isValid "Route" = false := ((hrefused compiler spec refused).mp h).2.1
    rw [hroute] at hinvalid
    contradiction
  · exact ((hrefused compiler kilometers refused).mp h).2.2 hkelvin

/-- A text that is no name can become one in its remote spelling, and a query is compiled under
it. -/
theorem remote_name_of_no_name :
    Name.isValid kilometers.name = false ∧ Name.isValid (Name.remote kilometers.name) = true ∧
    ∃ operation, (compiler.compile kilometers).result = .ok operation ∧
      operation.root.head.name = "kilometers" :=
  ⟨by decide, by decide, _, rfl, by decide⟩

end PathQuery.Transit
