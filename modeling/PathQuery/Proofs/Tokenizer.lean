import PathQuery.Proofs.Grammar
/-!
# Splitting queries into tokens

The first pass of reading a query. A text is split into tokens from the right, so that the
characters of a name are together once the name begins. The tokens are those of the lexical grammar,
and there is one way at most to split a text (`tokenize_eq_some_iff`).
-/

namespace PathQuery.Grammar

/-- The name characters in front of a text, and the tokens behind them. -/
structure Scan where
  word : List Char
  tokens : List Token

/-- All tokens, once the characters in front are a whole name. -/
def Scan.close? (scan : Scan) : Option (List Token) :=
  match scan.word with
  | [] => some scan.tokens
  | word =>
    if Name.isValid (String.ofList word) then some (.name (String.ofList word) :: scan.tokens)
    else none

@[simp] theorem Scan.close?_nil (tokens : List Token) :
    Scan.close? ⟨[], tokens⟩ = some tokens := rfl

def scan? : List Char → Option Scan
  | [] => some ⟨[], []⟩
  | c :: rest =>
    match scan? rest with
    | none => none
    | some behind =>
      if Name.isPart c then some ⟨c :: behind.word, behind.tokens⟩
      else if isIgnored c then behind.close?.map fun tokens => ⟨[], tokens⟩
      else match Token.ofChar? c with
        | some token => behind.close?.map fun tokens => ⟨[], token :: tokens⟩
        | none => none

def tokenize (text : List Char) : Option (List Token) := (scan? text).bind Scan.close?

theorem isPart_of_isIgnored {c : Char} (h : isIgnored c = true) : Name.isPart c = false := by
  simp only [isIgnored, Bool.or_eq_true, beq_iff_eq] at h
  rcases h with ((((rfl | rfl) | rfl) | rfl) | rfl) | rfl <;> decide

/-- A mark is neither a part of a name nor ignored. -/
theorem of_ofChar? {c : Char} {token : Token} (h : Token.ofChar? c = some token) :
    Name.isPart c = false ∧ isIgnored c = false := by
  unfold Token.ofChar? at h
  split at h
  all_goals first | contradiction | decide

theorem scan?_append {word : List Char} (h : word.all Name.isPart = true) (text : List Char) :
    scan? (word ++ text) =
      (scan? text).map fun behind => ⟨word ++ behind.word, behind.tokens⟩ := by
  induction word with
  | nil =>
    rw [List.nil_append]
    cases scan? text <;> rfl
  | cons c rest ih =>
    rw [List.all_cons, Bool.and_eq_true] at h
    rw [List.cons_append, scan?, ih h.2]
    cases scan? text with
    | none => rfl
    | some behind => simp [h.1]

/-- Where no name goes on, no characters are in front. -/
theorem word_eq_nil_of_endsName {text : List Char} {scan : Scan} (hends : endsName text = true)
    (h : scan? text = some scan) : scan.word = [] := by
  cases text with
  | nil =>
    obtain rfl := Option.some.inj h
    rfl
  | cons c rest =>
    have hpart : Name.isPart c = false := by simpa [endsName] using hends
    rw [scan?] at h
    cases hrest : scan? rest with
    | none => simp [hrest] at h
    | some behind =>
      simp only [hrest, hpart, Bool.false_eq_true, if_false] at h
      split at h
      · obtain ⟨tokens, -, rfl⟩ := Option.map_eq_some_iff.mp h
        rfl
      · split at h
        · obtain ⟨tokens, -, rfl⟩ := Option.map_eq_some_iff.mp h
          rfl
        · contradiction

theorem close?_of_isValid {name : String} (h : Name.isValid name = true) (tokens : List Token) :
    Scan.close? ⟨name.toList, tokens⟩ = some (.name name :: tokens) := by
  cases hname : name.toList with
  | nil => simp [Name.isValid, hname] at h
  | cons first rest =>
    have hlist : String.ofList (first :: rest) = name := by rw [← hname, String.ofList_toList]
    simp [Scan.close?, hlist, h]

theorem tokenize_of_lexes {text : List Char} {tokens : List Token} (h : Lexes text tokens) :
    tokenize text = some tokens := by
  induction h with
  | stop => rfl
  | @ignored c text tokens ignored rest ih =>
    obtain ⟨behind, hscan, hclose⟩ := Option.bind_eq_some_iff.mp ih
    simp [tokenize, scan?, hscan, isPart_of_isIgnored ignored, ignored, hclose]
  | @mark c token text tokens ofChar rest ih =>
    obtain ⟨behind, hscan, hclose⟩ := Option.bind_eq_some_iff.mp ih
    obtain ⟨hpart, hignored⟩ := of_ofChar? ofChar
    simp [tokenize, scan?, hscan, hpart, hignored, ofChar, hclose]
  | @name name text tokens valid ends rest ih =>
    obtain ⟨⟨word, behind⟩, hscan, hclose⟩ := Option.bind_eq_some_iff.mp ih
    obtain rfl : word = [] := word_eq_nil_of_endsName ends hscan
    obtain rfl : behind = tokens := Option.some.inj hclose
    have hparts : name.toList.all Name.isPart = true := by
      cases hname : name.toList with
      | nil => rfl
      | cons first rest =>
        simp only [Name.isValid, hname, Bool.and_eq_true] at valid
        rw [List.all_cons, Name.isPart, valid.1, Bool.true_or, Bool.true_and, valid.2]
    rw [tokenize, scan?_append hparts, hscan, Option.map_some, Option.bind_some, List.append_nil]
    exact close?_of_isValid valid behind

/-- What has been scanned: name characters that may not end here, and behind them a text that is
made of the tokens. -/
structure Scanned (text : List Char) (scan : Scan) : Prop where
  exists_rest : ∃ rest, text = scan.word ++ rest ∧ endsName rest = true ∧ Lexes rest scan.tokens

theorem Scanned.lexes {text : List Char} {scan : Scan} (h : Scanned text scan)
    {tokens : List Token} (hclose : scan.close? = some tokens) : Lexes text tokens := by
  obtain ⟨rest, rfl, hends, hrest⟩ := h.exists_rest
  obtain ⟨word, behind⟩ := scan
  cases word with
  | nil =>
    obtain rfl : behind = tokens := Option.some.inj hclose
    exact hrest
  | cons first others =>
    simp only [Scan.close?] at hclose
    split at hclose
    · rename_i hvalid
      obtain rfl := Option.some.inj hclose
      have hname := Lexes.name hvalid hends hrest
      rwa [String.toList_ofList] at hname
    · contradiction

theorem scanned_of_scan? {text : List Char} {scan : Scan} (h : scan? text = some scan) :
    Scanned text scan := by
  induction text generalizing scan with
  | nil =>
    obtain rfl := Option.some.inj h
    exact ⟨[], rfl, rfl, .stop⟩
  | cons c rest ih =>
    rw [scan?] at h
    cases hrest : scan? rest with
    | none => simp [hrest] at h
    | some behind =>
      simp only [hrest] at h
      split at h
      · obtain rfl := Option.some.inj h
        obtain ⟨others, rfl, hends, hothers⟩ := (ih hrest).exists_rest
        exact ⟨others, rfl, hends, hothers⟩
      · rename_i hpart
        have hends : endsName (c :: rest) = true := by simpa [endsName] using hpart
        split at h
        · rename_i hignored
          obtain ⟨tokens, hclose, rfl⟩ := Option.map_eq_some_iff.mp h
          exact ⟨c :: rest, rfl, hends, .ignored hignored ((ih hrest).lexes hclose)⟩
        · split at h
          · rename_i token hchar
            obtain ⟨tokens, hclose, rfl⟩ := Option.map_eq_some_iff.mp h
            exact ⟨c :: rest, rfl, hends, .mark hchar ((ih hrest).lexes hclose)⟩
          · contradiction

/-- The first pass finds the tokens a text is made of. -/
theorem tokenize_eq_some_iff {text : List Char} {tokens : List Token} :
    tokenize text = some tokens ↔ Lexes text tokens := by
  constructor
  · intro h
    obtain ⟨scan, hscan, hclose⟩ := Option.bind_eq_some_iff.mp h
    exact (scanned_of_scan? hscan).lexes hclose
  · exact tokenize_of_lexes

end PathQuery.Grammar
