import Mathlib.Data.List.TakeWhile
import PathQuery.Text.Blank
/-!
# Words and the blanks between them

Two texts that differ only in their blanks have the same words. Squeezing a text writes its words
with single spaces between them: every run of blanks becomes one space, and there are none at the
ends (`toList_squeeze`). A text that is written like this already, a tidy one, is made of its words
(`Tidy.join_words`), so that squeezing another text with the same words yields just that text.
-/

namespace PathQuery.Text

/-- One space for each run of blanks, written where the run ends. -/
def collapse : List Char → List Char
  | [] => []
  | c :: rest =>
    if isBlank c then
      if rest.head?.any isBlank then collapse rest else ' ' :: collapse rest
    else c :: collapse rest

/-- The text with one space for each run of blanks, and without blanks at its ends. -/
def squeeze (text : String) : String := trim (String.ofList (collapse text.toList))

/-- What stands between blanks. -/
def words (text : List Char) : List (List Char) :=
  (text.splitOnP isBlank).filter fun word => !word.isEmpty

/-- Single spaces between words. -/
def join (words : List (List Char)) : List Char := [' '].intercalate words

/-- A text that starts and ends with a letter of a word and has single spaces between its words. -/
inductive Tidy : List Char → Prop
  | single {c : Char} (solid : isBlank c = false) : Tidy [c]
  | cons {c : Char} {rest : List Char} (solid : isBlank c = false) (tidy : Tidy rest) :
      Tidy (c :: rest)
  | space {c : Char} {rest : List Char} (solid : isBlank c = false) (tidy : Tidy rest) :
      Tidy (c :: ' ' :: rest)

theorem isBlank_space : isBlank ' ' = true := by decide

/-! ### Words of texts -/

/-- Texts on both sides of a blank have their words to themselves. -/
theorem words_append_blank {c : Char} (hc : isBlank c = true) (text rest : List Char) :
    words (text ++ c :: rest) = words text ++ words rest := by
  rw [words, List.splitOnP_append_cons text rest hc, List.filter_append]
  rfl

theorem words_cons_blank {c : Char} (hc : isBlank c = true) (rest : List Char) :
    words (c :: rest) = words rest := by
  have happend := words_append_blank hc [] rest
  exact happend

theorem words_append_of_blank {blanks : List Char} (h : ∀ c ∈ blanks, isBlank c = true)
    (rest : List Char) : words (blanks ++ rest) = words rest := by
  induction blanks with
  | nil => rfl
  | cons c others ih =>
    rw [List.forall_mem_cons] at h
    rw [List.cons_append, words_cons_blank h.1, ih h.2]

theorem words_singleton {c : Char} (hc : isBlank c = false) : words [c] = [[c]] := by
  simp [words, List.splitOnP_cons_eq_if_modifyHead, hc]

/-- A letter in front of another one belongs to the same word. -/
theorem words_cons_cons {c d : Char} (hc : isBlank c = false) (hd : isBlank d = false)
    (rest : List Char) :
    ∃ word others, words (d :: rest) = word :: others ∧
      words (c :: d :: rest) = (c :: word) :: others := by
  obtain ⟨word, others, hsplit⟩ := List.exists_cons_of_ne_nil (List.splitOnP_ne_nil isBlank rest)
  refine ⟨d :: word, others.filter fun word => !word.isEmpty, ?_, ?_⟩ <;>
    simp [words, List.splitOnP_cons_eq_if_modifyHead, hc, hd, hsplit]

/-- A letter in front of a blank is a word. -/
theorem words_cons_of_blank {c d : Char} (hc : isBlank c = false) (hd : isBlank d = true)
    (rest : List Char) : words (c :: d :: rest) = [c] :: words rest := by
  have happend := words_append_blank hd [c] rest
  rwa [words_singleton hc] at happend

theorem join_cons_of_ne_nil (word : List Char) {words : List (List Char)} (h : words ≠ []) :
    join (word :: words) = word ++ ' ' :: join words := by
  obtain ⟨next, others, rfl⟩ := List.exists_cons_of_ne_nil h
  rw [join, List.intercalate_cons_cons, List.append_assoc]
  rfl

theorem join_cons_cons (c : Char) (word : List Char) (words : List (List Char)) :
    join ((c :: word) :: words) = c :: join (word :: words) := by
  cases words with
  | nil => simp [join]
  | cons next others => simp [join, List.intercalate_cons_cons]

/-! ### Tidy texts -/

namespace Tidy

variable {text other : List Char}

theorem of_word (hne : text ≠ []) (h : ∀ c ∈ text, isBlank c = false) : Tidy text := by
  induction text with
  | nil => contradiction
  | cons c rest ih =>
    rw [List.forall_mem_cons] at h
    cases rest with
    | nil => exact .single h.1
    | cons d others => exact .cons h.1 (ih (List.cons_ne_nil d others) h.2)

theorem append (h : Tidy text) (hother : Tidy other) : Tidy (text ++ other) := by
  induction h with
  | single solid => exact .cons solid hother
  | cons solid tidy ih => exact .cons solid ih
  | space solid tidy ih => exact .space solid ih

theorem append_space (h : Tidy text) (hother : Tidy other) : Tidy (text ++ ' ' :: other) := by
  induction h with
  | single solid => exact .space solid hother
  | cons solid tidy ih => exact .cons solid ih
  | space solid tidy ih => exact .space solid ih

/-- Parts with a comma and a space between them. -/
theorem intercalate {parts : List String} (hne : parts ≠ [])
    (h : ∀ part ∈ parts, Tidy part.toList) : Tidy (", ".intercalate parts).toList := by
  induction parts with
  | nil => contradiction
  | cons part rest ih =>
    rw [List.forall_mem_cons] at h
    cases rest with
    | nil => simpa using h.1
    | cons next others =>
      have hothers := ih (List.cons_ne_nil next others) h.2
      rw [String.intercalate_cons_cons, String.toList_append, String.toList_append,
        List.append_assoc]
      exact h.1.append (.space (by decide) hothers)

theorem exists_cons (h : Tidy text) : ∃ c rest, text = c :: rest ∧ isBlank c = false := by
  cases h with
  | single solid => exact ⟨_, _, rfl, solid⟩
  | cons solid tidy => exact ⟨_, _, rfl, solid⟩
  | space solid tidy => exact ⟨_, _, rfl, solid⟩

theorem exists_concat (h : Tidy text) : ∃ front c, text = front ++ [c] ∧ isBlank c = false := by
  induction h with
  | single solid => exact ⟨[], _, rfl, solid⟩
  | cons solid tidy ih =>
    obtain ⟨front, c, rfl, hc⟩ := ih
    exact ⟨_ :: front, c, rfl, hc⟩
  | space solid tidy ih =>
    obtain ⟨front, c, rfl, hc⟩ := ih
    exact ⟨_ :: ' ' :: front, c, rfl, hc⟩

theorem words_ne_nil {words : List (List Char)} (h : Tidy (join words)) : words ≠ [] := by
  rintro rfl
  obtain ⟨_, _, hcons, -⟩ := h.exists_cons
  contradiction

/-- A tidy text is made of its words. -/
theorem join_words (h : Tidy text) : join (words text) = text := by
  induction h with
  | single solid => simp [words_singleton solid, join]
  | @cons c rest solid tidy ih =>
    obtain ⟨d, others, rfl, hd⟩ := tidy.exists_cons
    obtain ⟨word, more, hrest, hword⟩ := words_cons_cons solid hd others
    rw [hword, join_cons_cons, ← hrest, ih]
  | @space c rest solid tidy ih =>
    have hne : words rest ≠ [] := (ih.symm ▸ tidy).words_ne_nil
    rw [words_cons_of_blank solid isBlank_space, join_cons_of_ne_nil _ hne, ih]
    rfl

/-- Blanks around a tidy text are all that is trimmed. -/
theorem trim_eq (h : Tidy text) {front back : List Char} (hfront : ∀ c ∈ front, isBlank c = true)
    (hback : ∀ c ∈ back, isBlank c = true) :
    trim (String.ofList (front ++ text ++ back)) = String.ofList text := by
  have hdrop : ∀ {blanks rest : List Char} {c : Char}, (∀ c ∈ blanks, isBlank c = true) →
      isBlank c = false → (blanks ++ c :: rest).dropWhile isBlank = c :: rest := by
    intro blanks rest c hblanks hc
    rw [List.dropWhile_append_of_pos hblanks, List.dropWhile_cons_of_neg (by simp [hc])]
  obtain ⟨c, rest, hcons, hc⟩ := h.exists_cons
  obtain ⟨others, d, hconcat, hd⟩ := h.exists_concat
  have hleft : (front ++ text ++ back).dropWhile isBlank = text ++ back := by
    rw [hcons, List.append_assoc, List.cons_append]
    exact hdrop hfront hc
  have hright : (text ++ back).reverse.dropWhile isBlank = text.reverse := by
    rw [List.reverse_append, hconcat, List.reverse_append]
    exact hdrop (by simpa using hback) hd
  rw [trim, String.toList_ofList, hleft, hright, List.reverse_reverse]

end Tidy

/-! ### Squeezing -/

theorem trim_of_blank {text : List Char} (h : ∀ c ∈ text, isBlank c = true) :
    trim (String.ofList text) = "" := by
  rw [trim, String.toList_ofList, List.dropWhile_eq_nil_iff.mpr h]
  rfl

/-- What squeezing leaves of a text before it is trimmed. -/
theorem collapse_eq (text : List Char) :
    (words text = [] ∨ Tidy (join (words text))) ∧
      ∃ back, (∀ c ∈ back, isBlank c = true) ∧
        collapse text =
          (if text.head?.any isBlank then [' '] else []) ++ join (words text) ++ back := by
  induction text with
  | nil => exact ⟨.inl rfl, [], by simp, rfl⟩
  | cons c rest ih =>
    obtain ⟨htidy, back, hback, hcollapse⟩ := ih
    cases hc : isBlank c with
    | true =>
      rw [words_cons_blank hc]
      refine ⟨htidy, back, hback, ?_⟩
      rw [collapse, if_pos hc, hcollapse]
      by_cases hrest : rest.head?.any isBlank = true <;> simp [hrest, hc]
    | false =>
      rw [collapse, if_neg (by simp [hc]), hcollapse]
      cases rest with
      | nil =>
        rw [words_singleton hc]
        exact ⟨.inr (by simpa [join] using Tidy.single hc), back, hback, by simp [hc, join, words]⟩
      | cons d others =>
        cases hd : isBlank d with
        | false =>
          obtain ⟨word, more, hrest, hword⟩ := words_cons_cons hc hd others
          have hinner : Tidy (join (word :: more)) := by
            rw [hrest] at htidy
            exact htidy.resolve_left (List.cons_ne_nil word more)
          rw [hword, hrest, join_cons_cons]
          exact ⟨.inr (.cons hc hinner), back, hback, by simp [hc, hd]⟩
        | true =>
          rw [words_cons_blank hd] at htidy ⊢
          rw [words_cons_of_blank hc hd]
          rcases htidy with hnil | htidy
          · rw [hnil]
            refine ⟨.inr (by simpa [join] using Tidy.single hc), ' ' :: back, ?_, ?_⟩
            · exact List.forall_mem_cons.mpr ⟨isBlank_space, hback⟩
            · simp [hc, hd, join]
          · rw [join_cons_of_ne_nil _ htidy.words_ne_nil]
            exact ⟨.inr (.space hc htidy), back, hback, by simp [hc, hd]⟩

/-- A squeezed text is made of the words of the text. -/
theorem toList_squeeze (text : String) : (squeeze text).toList = join (words text.toList) := by
  obtain ⟨htidy, back, hback, hcollapse⟩ := collapse_eq text.toList
  have hfront : ∀ c ∈ (if text.toList.head?.any isBlank then [' '] else []),
      isBlank c = true := by
    intro c hc
    split at hc
    · rw [List.mem_singleton.mp hc, isBlank_space]
    · contradiction
  rw [squeeze, hcollapse]
  rcases htidy with hnil | htidy
  · have hblank : trim (String.ofList
        ((if text.toList.head?.any isBlank then [' '] else []) ++ [] ++ back)) = "" := by
      apply trim_of_blank
      rw [List.append_nil, List.forall_mem_append]
      exact ⟨hfront, hback⟩
    rw [hnil]
    exact congrArg String.toList hblank
  · rw [htidy.trim_eq hfront hback, String.toList_ofList]

/-- Texts with the same words are squeezed to the tidy one among them. -/
theorem squeeze_eq_of_tidy {text tidy : String} (h : Tidy tidy.toList)
    (hwords : words text.toList = words tidy.toList) : squeeze text = tidy := by
  rw [← String.toList_inj, toList_squeeze, hwords, h.join_words]

end PathQuery.Text
