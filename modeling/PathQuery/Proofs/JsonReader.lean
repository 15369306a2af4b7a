import PathQuery.Json.Tree
import PathQuery.Proofs.JsonTokens
/-!
# Reading JSON

The tokens of a text are read into a tree, and the tree into the value it stands for. The reader
gives exactly what the grammar derives (`read?_eq_some_iff`), so a text stands for one value at
most.
-/

namespace PathQuery.Json

/-! ### The value of a tree -/

namespace Tree

section

variable (float : Literal → Float)

mutual

/-- The value a tree stands for, if no fault is in it and every string has content. -/
def json? : Tree → Option Json
  | .null => some .null
  | .bool b => some (.bool b)
  | .number literal => some (.number (literal.value float))
  | .string content => content.map .string
  | .array items => (items? items).map .array
  | .object entries => (entries? entries).map .object
  | .broken => none

def items? : List Tree → Option (List Json)
  | [] => some []
  | item :: rest => do
    let json ← json? item
    let others ← items? rest
    return json :: others

def entries? : List (Option String × Tree) → Option (List (String × Json))
  | [] => some []
  | (none, _) :: _ => none
  | (some key, value) :: rest => do
    let json ← json? value
    let others ← entries? rest
    return (key, json) :: others

end

/-! ### What is derived is read -/

/-- With this much fuel, if it is enough, the tokens of a value are read and nothing behind
them. -/
def ReadsValues (fuel : Nat) : Prop :=
  ∀ ⦃tokens json⦄, Grammar.Values float tokens json → 2 * tokens.length ≤ fuel + 1 →
    ∀ rest, ∃ tree, readValue fuel (tokens ++ rest) = (tree, rest) ∧ tree.json? float = some json

def ReadsItems (fuel : Nat) : Prop :=
  ∀ ⦃tokens items⦄, Grammar.Items float tokens items → 2 * tokens.length ≤ fuel →
    ∀ rest, ∃ trees, readItems fuel (tokens ++ .closeArray :: rest) = (trees, rest) ∧
      items? float trees = some items

def ReadsEntries (fuel : Nat) : Prop :=
  ∀ ⦃tokens entries⦄, Grammar.Entries float tokens entries → 2 * tokens.length ≤ fuel →
    ∀ rest, ∃ trees, readEntries fuel (tokens ++ .closeObject :: rest) = (trees, rest) ∧
      entries? float trees = some entries

end

open Grammar (Values Items Entries)

variable {float : Literal → Float} {tokens : List Token}

theorem exists_cons_of_values {json : Json} (h : Values float tokens json) :
    ∃ first others, tokens = first :: others ∧ first ≠ .closeArray := by
  cases h <;> exact ⟨_, _, rfl, Token.noConfusion⟩

theorem exists_cons_of_items {items : List Json} (h : Items float tokens items) :
    ∃ first others, tokens = first :: others ∧ first ≠ .closeArray := by
  cases h with
  | last below => exact exists_cons_of_values below
  | more below =>
    obtain ⟨first, others, rfl, hne⟩ := exists_cons_of_values below
    exact ⟨first, _, rfl, hne⟩

theorem exists_cons_of_entries {entries : List (String × Json)}
    (h : Entries float tokens entries) :
    ∃ first others, tokens = first :: others ∧ first ≠ .closeObject := by
  cases h <;> exact ⟨_, _, rfl, Token.noConfusion⟩

theorem readValue_openArray (fuel : Nat) {first : Token} (h : first ≠ .closeArray)
    (others : List Token) :
    readValue (fuel + 1) (.openArray :: first :: others) =
      (.array (readItems fuel (first :: others)).1, (readItems fuel (first :: others)).2) := by
  simp [readValue, h]

theorem readValue_openObject (fuel : Nat) {first : Token} (h : first ≠ .closeObject)
    (others : List Token) :
    readValue (fuel + 1) (.openObject :: first :: others) =
      (.object (readEntries fuel (first :: others)).1,
        (readEntries fuel (first :: others)).2) := by
  simp [readValue, h]

theorem readsValues_succ {fuel : Nat} (hitems : ReadsItems float fuel)
    (hentries : ReadsEntries float fuel) : ReadsValues float (fuel + 1) := by
  intro tokens json h hfuel rest
  cases h with
  | null => exact ⟨_, rfl, rfl⟩
  | bool b => exact ⟨_, rfl, rfl⟩
  | number literal => exact ⟨_, rfl, rfl⟩
  | string s => exact ⟨_, rfl, rfl⟩
  | emptyArray => exact ⟨_, rfl, rfl⟩
  | emptyObject => exact ⟨_, rfl, rfl⟩
  | @array tokens items inner =>
    simp only [List.length_cons, List.length_append, List.length_nil] at hfuel
    obtain ⟨trees, hread, hjson⟩ := hitems inner (by omega) rest
    obtain ⟨first, others, rfl, hne⟩ := exists_cons_of_items inner
    refine ⟨.array trees, ?_, by simp [json?, hjson]⟩
    simp only [List.cons_append, List.append_assoc, List.nil_append] at hread ⊢
    rw [readValue_openArray fuel hne, hread]
  | @object tokens entries inner =>
    simp only [List.length_cons, List.length_append, List.length_nil] at hfuel
    obtain ⟨trees, hread, hjson⟩ := hentries inner (by omega) rest
    obtain ⟨first, others, rfl, hne⟩ := exists_cons_of_entries inner
    refine ⟨.object trees, ?_, by simp [json?, hjson]⟩
    simp only [List.cons_append, List.append_assoc, List.nil_append] at hread ⊢
    rw [readValue_openObject fuel hne, hread]

theorem readsItems_succ {fuel : Nat} (hvalues : ReadsValues float fuel)
    (hitems : ReadsItems float fuel) : ReadsItems float (fuel + 1) := by
  intro tokens items h hfuel rest
  cases h with
  | last below =>
    obtain ⟨tree, hread, hjson⟩ := hvalues below (by omega) (.closeArray :: rest)
    exact ⟨[tree], by simp [readItems, hread], by simp [items?, hjson]⟩
  | @more tokens item others items below after =>
    simp only [List.length_cons, List.length_append] at hfuel
    obtain ⟨tree, hread, hjson⟩ := hvalues below (by omega)
      (.comma :: (others ++ .closeArray :: rest))
    obtain ⟨trees, hreads, hjsons⟩ := hitems after (by omega) rest
    refine ⟨tree :: trees, ?_, by simp [items?, hjson, hjsons]⟩
    simp [readItems, hread, hreads]

theorem readsEntries_succ {fuel : Nat} (hvalues : ReadsValues float fuel)
    (hentries : ReadsEntries float fuel) : ReadsEntries float (fuel + 1) := by
  intro tokens entries h hfuel rest
  cases h with
  | @last key tokens value below =>
    simp only [List.length_cons] at hfuel
    obtain ⟨tree, hread, hjson⟩ := hvalues below (by omega) (.closeObject :: rest)
    exact ⟨[(some key, tree)], by simp [readEntries, hread], by simp [entries?, hjson]⟩
  | @more key tokens value others entries below after =>
    simp only [List.length_cons, List.length_append] at hfuel
    obtain ⟨tree, hread, hjson⟩ := hvalues below (by omega)
      (.comma :: (others ++ .closeObject :: rest))
    obtain ⟨trees, hreads, hjsons⟩ := hentries after (by omega) rest
    refine ⟨(some key, tree) :: trees, ?_, by simp [entries?, hjson, hjsons]⟩
    simp [readEntries, hread, hreads]

theorem reads (fuel : Nat) :
    ReadsValues float fuel ∧ ReadsItems float fuel ∧ ReadsEntries float fuel := by
  induction fuel with
  | zero =>
    -- Whatever is derived has a token, so it does not do without fuel.
    refine ⟨fun tokens json h hfuel => ?_, fun tokens items h hfuel => ?_,
      fun tokens entries h hfuel => ?_⟩
    · obtain ⟨first, others, rfl, -⟩ := exists_cons_of_values h
      simp only [List.length_cons] at hfuel
      omega
    · obtain ⟨first, others, rfl, -⟩ := exists_cons_of_items h
      simp only [List.length_cons] at hfuel
      omega
    · obtain ⟨first, others, rfl, -⟩ := exists_cons_of_entries h
      simp only [List.length_cons] at hfuel
      omega
  | succ fuel ih =>
    obtain ⟨hvalues, hitems, hentries⟩ := ih
    exact ⟨readsValues_succ hitems hentries, readsItems_succ hvalues hitems,
      readsEntries_succ hvalues hentries⟩

/-! ### What is read is derived -/

section

variable (float : Literal → Float)

/-- With this much fuel only the tokens of values are taken for values. -/
def SoundValues (fuel : Nat) : Prop :=
  ∀ ⦃tokens rest tree json⦄, readValue fuel tokens = (tree, rest) → tree.json? float = some json →
    ∃ used, tokens = used ++ rest ∧ Values float used json

def SoundItems (fuel : Nat) : Prop :=
  ∀ ⦃tokens rest trees items⦄, readItems fuel tokens = (trees, rest) →
    items? float trees = some items →
      ∃ used, tokens = used ++ .closeArray :: rest ∧ Items float used items

def SoundEntries (fuel : Nat) : Prop :=
  ∀ ⦃tokens rest trees entries⦄, readEntries fuel tokens = (trees, rest) →
    entries? float trees = some entries →
      ∃ used, tokens = used ++ .closeObject :: rest ∧ Entries float used entries

end

theorem items?_cons_eq_some_iff {tree : Tree} {trees : List Tree} {items : List Json} :
    items? float (tree :: trees) = some items ↔
      ∃ item others, tree.json? float = some item ∧ items? float trees = some others ∧
        item :: others = items := by
  simp [items?, Option.bind_eq_some_iff]

theorem entries?_cons_eq_some_iff {key : Option String} {tree : Tree}
    {trees : List (Option String × Tree)} {entries : List (String × Json)} :
    entries? float ((key, tree) :: trees) = some entries ↔
      ∃ name value others, key = some name ∧ tree.json? float = some value ∧
        entries? float trees = some others ∧ (name, value) :: others = entries := by
  cases key with
  | none => simp [entries?]
  | some name => simp [entries?, Option.bind_eq_some_iff]

theorem soundValues_succ {fuel : Nat} (hitems : SoundItems float fuel)
    (hentries : SoundEntries float fuel) : SoundValues float (fuel + 1) := by
  intro tokens rest tree json h hjson
  unfold readValue at h
  split at h <;> obtain ⟨rfl, rfl⟩ := Prod.mk.inj h
  case h_1 =>
    obtain rfl := Option.some.inj hjson
    exact ⟨_, rfl, .null⟩
  case h_2 =>
    obtain rfl := Option.some.inj hjson
    exact ⟨_, rfl, .bool _⟩
  case h_3 =>
    obtain rfl := Option.some.inj hjson
    exact ⟨_, rfl, .number _⟩
  case h_4 =>
    obtain ⟨s, rfl, rfl⟩ := Option.map_eq_some_iff.mp hjson
    exact ⟨_, rfl, .string s⟩
  case h_5 =>
    obtain rfl := Option.some.inj hjson
    exact ⟨_, rfl, .emptyArray⟩
  case h_6 =>
    obtain ⟨items, hsome, rfl⟩ := Option.map_eq_some_iff.mp hjson
    obtain ⟨used, hbehind, hused⟩ := hitems rfl hsome
    exact ⟨_, by simpa using hbehind, .array hused⟩
  case h_7 =>
    obtain rfl := Option.some.inj hjson
    exact ⟨_, rfl, .emptyObject⟩
  case h_8 =>
    obtain ⟨entries, hsome, rfl⟩ := Option.map_eq_some_iff.mp hjson
    obtain ⟨used, hbehind, hused⟩ := hentries rfl hsome
    exact ⟨_, by simpa using hbehind, .object hused⟩
  case h_9 => cases hjson

theorem soundItems_succ {fuel : Nat} (hvalues : SoundValues float fuel)
    (hitems : SoundItems float fuel) : SoundItems float (fuel + 1) := by
  intro tokens rest trees items h hsome
  cases hread : readValue fuel tokens with
  | mk tree behind =>
    simp only [readItems, hread] at h
    split at h
    · obtain ⟨rfl, rfl⟩ := Prod.mk.inj h
      obtain ⟨item, others, hjson, hothers, rfl⟩ := items?_cons_eq_some_iff.mp hsome
      obtain ⟨used, rfl, hused⟩ := hvalues hread hjson
      obtain ⟨more, hbehind, hmore⟩ := hitems rfl hothers
      exact ⟨_, by simpa using hbehind, .more hused hmore⟩
    · obtain ⟨rfl, rfl⟩ := Prod.mk.inj h
      obtain ⟨item, others, hjson, hothers, rfl⟩ := items?_cons_eq_some_iff.mp hsome
      obtain rfl := Option.some.inj hothers
      obtain ⟨used, rfl, hused⟩ := hvalues hread hjson
      exact ⟨used, rfl, .last hused⟩
    · obtain ⟨rfl, rfl⟩ := Prod.mk.inj h
      obtain ⟨-, others, -, hothers, -⟩ := items?_cons_eq_some_iff.mp hsome
      cases hothers

theorem soundEntries_succ {fuel : Nat} (hvalues : SoundValues float fuel)
    (hentries : SoundEntries float fuel) : SoundEntries float (fuel + 1) := by
  intro tokens rest trees entries h hsome
  unfold readEntries at h
  split at h
  · rename_i key behind
    cases hread : readValue fuel behind with
    | mk tree behind =>
      simp only [hread] at h
      split at h <;> obtain ⟨rfl, rfl⟩ := Prod.mk.inj h <;>
        obtain ⟨name, value, others, rfl, hjson, hothers, rfl⟩ :=
          entries?_cons_eq_some_iff.mp hsome
      · obtain ⟨used, rfl, hused⟩ := hvalues hread hjson
        obtain ⟨more, hbehind, hmore⟩ := hentries rfl hothers
        exact ⟨_, by simpa using hbehind, .more hused hmore⟩
      · obtain rfl := Option.some.inj hothers
        obtain ⟨used, rfl, hused⟩ := hvalues hread hjson
        exact ⟨_, rfl, .last hused⟩
      · cases hothers
  · obtain ⟨rfl, rfl⟩ := Prod.mk.inj h
    obtain ⟨name, value, others, -, hjson, -⟩ := entries?_cons_eq_some_iff.mp hsome
    cases hjson
  · obtain ⟨rfl, rfl⟩ := Prod.mk.inj h
    cases hsome

theorem sound (fuel : Nat) :
    SoundValues float fuel ∧ SoundItems float fuel ∧ SoundEntries float fuel := by
  induction fuel with
  | zero =>
    refine ⟨fun tokens rest tree json h hjson => ?_, fun tokens rest trees items h hsome => ?_,
      fun tokens rest trees entries h hsome => ?_⟩
    · obtain ⟨rfl, -⟩ := Prod.mk.inj h
      cases hjson
    · obtain ⟨rfl, -⟩ := Prod.mk.inj h
      cases hsome
    · obtain ⟨rfl, -⟩ := Prod.mk.inj h
      cases hsome
  | succ fuel ih =>
    obtain ⟨hvalues, hitems, hentries⟩ := ih
    exact ⟨soundValues_succ hitems hentries, soundItems_succ hvalues hitems,
      soundEntries_succ hvalues hentries⟩

end Tree

/-! ### Texts -/

/-- The value of a text, if it is JSON as a whole. -/
def read? (float : Literal → Float) (text : String) : Option Json :=
  if (Tree.read text).2 then (Tree.read text).1.json? float else none

namespace Grammar

variable {float : Literal → Float} {text : String} {json : Json}

mutual

theorem fault_not_mem_values : ∀ {tokens : List Token} {json : Json},
    Values float tokens json → .fault ∉ tokens
  | _, _, .null | _, _, .bool _ | _, _, .number _ | _, _, .string _ => by simp
  | _, _, .emptyArray | _, _, .emptyObject => by simp
  | _, _, .array inner => by simpa using fault_not_mem_items inner
  | _, _, .object inner => by simpa using fault_not_mem_entries inner

theorem fault_not_mem_items : ∀ {tokens : List Token} {items : List Json},
    Items float tokens items → .fault ∉ tokens
  | _, _, .last below => fault_not_mem_values below
  | _, _, .more below rest => by
    simpa using ⟨fault_not_mem_values below, fault_not_mem_items rest⟩

theorem fault_not_mem_entries : ∀ {tokens : List Token} {entries : List (String × Json)},
    Entries float tokens entries → .fault ∉ tokens
  | _, _, .last below => by simpa using fault_not_mem_values below
  | _, _, .more below rest => by
    simpa using ⟨fault_not_mem_values below, fault_not_mem_entries rest⟩

end

/-- The reader gives the value that a text stands for. -/
theorem read?_eq_some_iff : read? float text = some json ↔ Denotes float text json := by
  constructor
  · intro h
    cases hread : Tree.readValue (2 * (Token.scan text.toList).length + 1)
      (Token.scan text.toList) with
    | mk tree rest =>
      simp only [read?, Tree.read, hread] at h
      split at h
      · rename_i hcomplete
        obtain ⟨used, htokens, hvalues⟩ := (Tree.sound _).1 hread h
        rw [List.isEmpty_iff.mp hcomplete, List.append_nil] at htokens
        rw [← htokens] at hvalues
        exact ⟨_, scan_eq_iff.mp ⟨rfl, fault_not_mem_values hvalues⟩, hvalues⟩
      · cases h
  · rintro ⟨tokens, hlexes, hvalues⟩
    obtain ⟨tree, hread, hjson⟩ := (Tree.reads (2 * tokens.length + 1)).1 hvalues (by omega) []
    rw [List.append_nil] at hread
    have hwhole : Tree.read text = (tree, true) := by
      simp [Tree.read, scan_of_lexes hlexes, hread]
    rw [read?, hwhole, if_pos rfl, hjson]

/-- A text stands for one value at most. -/
theorem Denotes.unique {other : Json} (h : Denotes float text json)
    (hother : Denotes float text other) : json = other := by
  have hread := read?_eq_some_iff.mpr h
  rw [read?_eq_some_iff.mpr hother] at hread
  exact (Option.some.inj hread).symm

end Grammar

end PathQuery.Json
