import PathQuery.Proofs.WellNamed
import PathQuery.Proofs.Words
import PathQuery.Selection.Text
/-!
# One selection, two layouts

A selection is written over several lines or on a single one. Both layouts have the same words,
whatever the names in them look like (`words_indented`): what they put between the words differs,
but it is blank. Where the names are names, the layout on a single line is tidy (`tidy_compact`), so
that it is what any other layout is squeezed to.
-/

namespace PathQuery

open Text (Tidy isBlank words)

namespace Name

theorem isBlank_of_isPart {c : Char} (h : isPart c = true) : isBlank c = false := by
  have hascii : ∀ n < 128, isPart (Char.ofNat n) = true → isBlank (Char.ofNat n) = false := by
    decide
  have hlt : c.toNat < 128 := by
    rcases Bool.or_eq_true_iff.mp h with h | h
    · exact toNat_lt_of_isStart h
    · simp only [Char.isDigit, Bool.and_eq_true, decide_eq_true_eq,
        UInt32.le_iff_toNat_le] at h
      exact Nat.lt_of_le_of_lt h.2 (by decide)
  have hc := hascii c.toNat hlt
  rw [Char.ofNat_toNat] at hc
  exact hc h

/-- A name is a word. -/
theorem tidy_of_isValid {name : String} (h : isValid name = true) : Tidy name.toList := by
  obtain ⟨first, rest, rfl, hfirst, hrest⟩ := exists_of_isValid h
  rw [String.toList_ofList]
  refine .of_word (List.cons_ne_nil first rest) (List.forall_mem_cons.mpr ⟨?_, fun c hc => ?_⟩)
  · exact isBlank_of_isPart (by rw [isPart, hfirst, Bool.true_or])
  · exact isBlank_of_isPart (List.all_eq_true.mp hrest c hc)

end Name

namespace Selection

/-! ### Heads on a line -/

theorem Binding.tidy_text {binding : Binding} (hargument : Name.isValid binding.argument = true)
    (hvariable : Name.isValid binding.variableName = true) : Tidy binding.text.toList := by
  have hmark : Tidy (':' :: ' ' :: '$' :: binding.variableName.toList) :=
    .space (by decide) (.cons (by decide) (Name.tidy_of_isValid hvariable))
  have htext : binding.text.toList =
      binding.argument.toList ++ ':' :: ' ' :: '$' :: binding.variableName.toList := by
    simp [text]
  rw [htext]
  exact (Name.tidy_of_isValid hargument).append hmark

namespace Head

theorem tidy_text {head : Head} (h : head.WellNamed) : Tidy head.text.toList := by
  have hname := Name.tidy_of_isValid h.name
  have hlabelled : Tidy (head.labelText ++ head.name).toList := by
    rw [String.toList_append, labelText]
    cases hlabel : head.label with
    | none => exact hname
    | some label =>
      have htidy := Name.tidy_of_isValid (h.label label hlabel)
      have hcolon : Tidy (label.toList ++ [':']) := htidy.append (.single (by decide))
      simpa using hcolon.append_space hname
  rw [text, String.toList_append, argumentsText]
  cases harguments : head.arguments with
  | nil => simpa using hlabelled
  | cons first rest =>
    have hbindings : ∀ part ∈ (first :: rest).map Binding.text, Tidy part.toList := by
      intro part hpart
      obtain ⟨binding, hbinding, rfl⟩ := List.mem_map.mp hpart
      obtain ⟨hargument, hvariable⟩ := h.argument binding (harguments ▸ hbinding)
      exact Binding.tidy_text hargument hvariable
    have hinner : Tidy (", ".intercalate ((first :: rest).map Binding.text)).toList :=
      .intercalate (by simp) hbindings
    have hclosed := hinner.append (@Tidy.single ')' (by decide))
    have hparens : Tidy ('(' :: _) := .cons (by decide) hclosed
    simpa using hlabelled.append hparens

end Head

namespace Node

/-! ### Words of a selection -/

theorem words_indent (depth : Nat) (text : List Char) :
    words ((indent depth).toList ++ text) = words text := by
  rw [indent, String.toList_ofList]
  apply Text.words_append_of_blank
  intro c hc
  rw [List.eq_of_mem_replicate hc, Text.isBlank_space]

theorem toList_allCompact_cons (node : Node) (rest : List Node) :
    (allCompact (node :: rest)).toList =
      ' ' :: ((compact node).toList ++ (allCompact rest).toList) := by
  simp [allCompact]

theorem words_allCompact_cons (node : Node) (rest : List Node) :
    words (allCompact (node :: rest)).toList =
      words ((compact node).toList ++ (allCompact rest).toList) := by
  rw [toList_allCompact_cons, Text.words_cons_blank Text.isBlank_space]

theorem words_append_allCompact (text : List Char) (nodes : List Node) :
    words (text ++ (allCompact nodes).toList) = words text ++ words (allCompact nodes).toList := by
  cases nodes with
  | nil => simp [allCompact, words]
  | cons node rest =>
    rw [words_allCompact_cons, toList_allCompact_cons, Text.words_append_blank Text.isBlank_space]

/-- A line and what comes behind it. -/
theorem words_line (depth : Nat) (line text : List Char) :
    words ((indent depth).toList ++ (line ++ '\n' :: text)) = words line ++ words text := by
  rw [words_indent, Text.words_append_blank (by decide)]

/-- A compact branch, as what is in front of its selection set, inside it and behind it. -/
theorem words_compact_branch (head : Head) (children : List Node) :
    words (compact (.branch head children)).toList =
      words (head.text.toList ++ [' ', '{']) ++ words (allCompact children).toList ++
        words ['}'] := by
  have hcompact : (compact (.branch head children)).toList =
      ((head.text.toList ++ [' ', '{']) ++ (allCompact children).toList) ++ ' ' :: ['}'] := by
    simp [compact]
  rw [hcompact, Text.words_append_blank Text.isBlank_space, words_append_allCompact]

mutual

/-- The lines of a node, in front of any text, add the words of its compact form. -/
theorem words_indented (depth : Nat) (text : List Char) : ∀ node : Node,
    words ((indented depth node).toList ++ text) = words (compact node).toList ++ words text
  | leaf head => by
    have hlines : (indented depth (.leaf head)).toList ++ text =
        (indent depth).toList ++ (head.text.toList ++ '\n' :: text) := by
      simp [indented]
    rw [hlines, words_line, compact]
  | branch head [] => by
    have hlines : (indented depth (.branch head [])).toList ++ text =
        (indent depth).toList ++ ((compact (.branch head [])).toList ++ '\n' :: text) := by
      simp [indented, compact, allCompact]
    rw [hlines, words_line]
  | branch head (first :: rest) => by
    have hlines : (indented depth (.branch head (first :: rest))).toList ++ text =
        (indent depth).toList ++ ((head.text.toList ++ [' ', '{']) ++ '\n' ::
          ((allIndented (depth + 1) (first :: rest)).toList ++
            ((indent depth).toList ++ (['}'] ++ '\n' :: text)))) := by
      simp [indented, allIndented]
    rw [hlines, words_line, words_allIndented, words_line, words_compact_branch]
    simp only [List.append_assoc]

theorem words_allIndented (depth : Nat) (text : List Char) : ∀ nodes : List Node,
    words ((allIndented depth nodes).toList ++ text) =
      words (allCompact nodes).toList ++ words text
  | [] => by simp [allIndented, allCompact, words]
  | node :: rest => by
    rw [allIndented, String.toList_append, List.append_assoc, words_indented, words_allIndented,
      words_allCompact_cons, words_append_allCompact, List.append_assoc]

end

/-! ### The compact layout -/

mutual

theorem tidy_compact : ∀ node : Node, AllWellNamed [node] → Tidy (compact node).toList
  | leaf head, h => Head.tidy_text (allWellNamed_leaf_iff.mp h)
  | branch head children, h => by
    obtain ⟨hhead, hchildren⟩ := allWellNamed_branch_iff.mp h
    have hopened : Tidy (head.text.toList ++ ' ' :: ['{']) :=
      (Head.tidy_text hhead).append_space (.single (by decide))
    have hfilled := tidy_append_allCompact hopened children hchildren
    have hclosed : Tidy (_ ++ ' ' :: ['}']) := hfilled.append_space (.single (by decide))
    simpa [compact] using hclosed

/-- Nodes are written behind something that is tidy. -/
theorem tidy_append_allCompact {text : List Char} (htext : Tidy text) :
    ∀ nodes : List Node, AllWellNamed nodes → Tidy (text ++ (allCompact nodes).toList)
  | [], _ => by simpa [allCompact] using htext
  | node :: rest, h => by
    obtain ⟨hnode, hrest⟩ := allWellNamed_cons_iff.mp h
    have hfront := htext.append_space (tidy_compact node hnode)
    have hall := tidy_append_allCompact hfront rest hrest
    simpa [allCompact] using hall

end

/-- Without its first blank, the compact layout is the nodes with single spaces between them. -/
theorem intercalate_compact (node : Node) (rest : List Node) :
    " ".intercalate ((node :: rest).map compact) = compact node ++ allCompact rest := by
  induction rest generalizing node with
  | nil => simp [allCompact]
  | cons next others ih =>
    rw [List.map_cons, List.map_cons, String.intercalate_cons_cons, ← List.map_cons, ih next,
      allCompact, String.append_assoc, String.append_assoc]

/-- However deep a selection is indented, squeezing its lines gives its nodes in compact form with
single spaces between them. -/
theorem squeeze_allIndented {nodes : List Node} (h : AllWellNamed nodes) (depth : Nat) :
    Text.squeeze (allIndented depth nodes) = " ".intercalate (nodes.map compact) := by
  cases nodes with
  | nil =>
    rw [← String.toList_inj, Text.toList_squeeze]
    rfl
  | cons node rest =>
    have hlines : words (allIndented depth (node :: rest)).toList =
        words (allCompact (node :: rest)).toList := by
      have happend := words_allIndented depth [] (node :: rest)
      simpa [words] using happend
    obtain ⟨hnode, hrest⟩ := allWellNamed_cons_iff.mp h
    rw [intercalate_compact]
    apply Text.squeeze_eq_of_tidy
    · rw [String.toList_append]
      exact tidy_append_allCompact (tidy_compact node hnode) rest hrest
    · rw [hlines, words_allCompact_cons, String.toList_append]

/-- A route with its trips and no fields of its alerts, beside a field under a label. -/
theorem squeeze_allIndented_of_route :
    AllWellNamed [Transit.rendered.root, .leaf ⟨"gtfsId", some "Id", []⟩] ∧
    Text.squeeze (allIndented 2 [Transit.rendered.root, .leaf ⟨"gtfsId", some "Id", []⟩]) =
      "result: route(id: $id) \x7b shortName alerts(first: $first1) \x7b \x7d " ++
        "trips(serviceDate: $serviceDate2) \x7b gtfsId \x7d \x7d Id: gtfsId" := by
  have hroute : AllWellNamed [Transit.rendered.root] :=
    @Query.Compiler.allWellNamed_of_compile ⟨Transit.registry, { emptySelection := .render }⟩
      Transit.spec _ rfl Transit.built_registry
  have hleaf : AllWellNamed [.leaf ⟨"gtfsId", some "Id", []⟩] := by
    rw [allWellNamed_leaf_iff]
    exact ⟨by decide, fun label hlabel => Option.some.inj hlabel ▸ by decide, by simp⟩
  have hnamed := allWellNamed_cons_iff.mpr ⟨hroute, hleaf⟩
  exact ⟨hnamed, squeeze_allIndented hnamed 2⟩

end Node

end Selection

end PathQuery
