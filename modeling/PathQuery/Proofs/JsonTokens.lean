import PathQuery.Proofs.JsonGrammar
/-!
# Splitting JSON into tokens

The one pass over a text finds the tokens of the lexical grammar (`scan_eq_iff`). What is derived is
found, because every token leaves the pass between two tokens again. What is found is derived: at
every character the tokens found so far are those of a text in front, and what is behind that text
is the beginning of one more token. A literal is read exactly as the grammar spells it
(`Literal.read?_eq_some_iff`).
-/

namespace PathQuery

/-! ### Literals -/

namespace Json

open Decimal (readExponent? splitSign)
open Literal (read? readFraction?)

namespace Grammar

theorem splitSign_of_signs {sign digits : List Char} {negative : Bool} (h : Signs sign negative)
    (hdigits : IsNumeral digits) : splitSign (sign ++ digits) = (negative, digits) := by
  cases h with
  | none =>
    obtain ⟨first, others, rfl⟩ := List.exists_cons_of_ne_nil hdigits.nonempty
    have hdigit := hdigits.isDigit first List.mem_cons_self
    have hplus : first ≠ '+' := by
      rintro rfl
      exact absurd hdigit (by decide)
    have hminus : first ≠ '-' := by
      rintro rfl
      exact absurd hdigit (by decide)
    simp [splitSign, hplus, hminus]
  | plus => rfl
  | minus => rfl

theorem signs_splitSign (text : List Char) :
    ∃ sign, Signs sign (splitSign text).1 ∧ text = sign ++ (splitSign text).2 := by
  unfold splitSign
  split
  · exact ⟨_, .minus, rfl⟩
  · exact ⟨_, .plus, rfl⟩
  · exact ⟨_, .none, rfl⟩

theorem readExponent?_eq_some_iff {scaled : List Char} {exponent : Option Int} :
    (readExponent? scaled).map (fun e => if scaled.isEmpty then none else some e) = some exponent ↔
      Exponents scaled exponent := by
  constructor
  · intro h
    obtain ⟨e, hread, rfl⟩ := Option.map_eq_some_iff.mp h
    cases scaled with
    | nil => exact .none
    | cons letter signed =>
      simp only [readExponent?] at hread
      split at hread
      · rename_i hletter
        split at hread
        · cases hread
        · rename_i hdigits
          simp only [Bool.or_eq_true, not_or, Bool.not_eq_true', Bool.not_eq_false,
            List.isEmpty_iff] at hdigits
          obtain ⟨sign, hsign, hsigned⟩ := signs_splitSign signed
          have hnumeral : IsNumeral (splitSign signed).2 :=
            ⟨hdigits.1, List.all_eq_true.mp hdigits.2⟩
          have hisLetter : letter = 'e' ∨ letter = 'E' := by
            simpa using hletter
          obtain rfl := Option.some.inj hread
          have hexponents := Exponents.some hisLetter hsign hnumeral
          rwa [← hsigned] at hexponents
      · cases hread
  · intro h
    cases h with
    | none => rfl
    | @some letter sign negative digits isLetter signs numeral =>
      have hletter : (letter == 'e' || letter == 'E') = true := by simpa using isLetter
      have hall : digits.all Char.isDigit = true := List.all_eq_true.mpr numeral.isDigit
      simp [readExponent?, hletter, splitSign_of_signs signs numeral, numeral.nonempty, hall]

/-- No digit comes next. -/
def EndsNumeral (text : List Char) : Prop := ∀ c ∈ text.head?, c.isDigit = false

theorem Exponents.head?_eq {scaled : List Char} {exponent : Option Int}
    (h : Exponents scaled exponent) : ∀ c ∈ scaled.head?, c = 'e' ∨ c = 'E' := by
  intro c hc
  cases h with
  | none => cases hc
  | some isLetter => exact Option.some.inj hc ▸ isLetter

theorem Exponents.endsNumeral {scaled : List Char} {exponent : Option Int}
    (h : Exponents scaled exponent) : EndsNumeral scaled := by
  intro c hc
  rcases h.head?_eq c hc with rfl | rfl <;> decide

theorem takeWhile_isDigit {digits text : List Char} (h : IsNumeral digits)
    (hends : EndsNumeral text) : (digits ++ text).takeWhile Char.isDigit = digits := by
  rw [List.takeWhile_append_of_pos h.isDigit]
  cases text with
  | nil => simp
  | cons c rest => rw [List.takeWhile_cons_of_neg (by simp [hends c rfl]), List.append_nil]

theorem dropWhile_isDigit {digits text : List Char} (h : IsNumeral digits)
    (hends : EndsNumeral text) : (digits ++ text).dropWhile Char.isDigit = text := by
  rw [List.dropWhile_append_of_pos h.isDigit]
  cases text with
  | nil => rfl
  | cons c rest => rw [List.dropWhile_cons_of_neg (by simp [hends c rfl])]

theorem isNumeral_takeWhile {text : List Char} (h : text.takeWhile Char.isDigit ≠ []) :
    IsNumeral (text.takeWhile Char.isDigit) :=
  ⟨h, List.all_eq_true.mp List.all_takeWhile⟩

theorem readFraction?_append {pointed scaled : List Char} {fraction : Option (List Char)}
    {exponent : Option Int} (hfractions : Fractions pointed fraction)
    (hexponents : Exponents scaled exponent) :
    readFraction? (pointed ++ scaled) = some (fraction, scaled) := by
  cases hfractions with
  | none =>
    cases hexponents with
    | none => rfl
    | some isLetter => rcases isLetter with rfl | rfl <;> rfl
  | some numeral =>
    simp [readFraction?, takeWhile_isDigit numeral hexponents.endsNumeral,
      dropWhile_isDigit numeral hexponents.endsNumeral, numeral.nonempty]

theorem fractions_of_readFraction? {text scaled : List Char} {fraction : Option (List Char)}
    (h : readFraction? text = some (fraction, scaled)) :
    ∃ pointed, Fractions pointed fraction ∧ text = pointed ++ scaled := by
  unfold readFraction? at h
  split at h
  · rename_i behind
    simp only at h
    split at h
    · cases h
    · rename_i hdigits
      obtain ⟨rfl, rfl⟩ := Prod.mk.inj (Option.some.inj h)
      have hnumeral := isNumeral_takeWhile (by simpa using hdigits)
      refine ⟨_, .some hnumeral, ?_⟩
      rw [List.cons_append, List.takeWhile_append_dropWhile]
  · obtain ⟨rfl, rfl⟩ := Prod.mk.inj (Option.some.inj h)
    exact ⟨[], .none, rfl⟩

theorem endsNumeral_append {pointed scaled : List Char} {fraction : Option (List Char)}
    {exponent : Option Int} (hfractions : Fractions pointed fraction)
    (hexponents : Exponents scaled exponent) : EndsNumeral (pointed ++ scaled) := by
  cases hfractions with
  | none => exact hexponents.endsNumeral
  | some numeral =>
    intro c hc
    obtain rfl := Option.some.inj hc
    decide

end Grammar

open Grammar

/-- A literal is read exactly as the grammar spells it. -/
theorem Literal.read?_eq_some_iff {spelling : List Char} {literal : Literal} :
    read? spelling = some literal ↔ Numbers spelling literal := by
  constructor
  · intro h
    unfold read? at h
    split at h
    rename_i negative unsigned hsign
    simp only at h
    split at h
    · cases h
    · rename_i hwhole
      simp only [Bool.or_eq_true, Bool.and_eq_true, List.isEmpty_iff, beq_iff_eq, bne_iff_ne,
        not_or, not_and, Decidable.not_not] at hwhole
      obtain ⟨⟨fraction, scaled⟩, hfraction, hexponent⟩ := Option.bind_eq_some_iff.mp h
      obtain ⟨e, he, rfl⟩ := Option.map_eq_some_iff.mp hexponent
      obtain ⟨pointed, hfractions, hbehind⟩ := fractions_of_readFraction? hfraction
      have hexponents := readExponent?_eq_some_iff.mp (Option.map_eq_some_iff.mpr ⟨e, he, rfl⟩)
      have hisWhole : IsWhole (unsigned.takeWhile Char.isDigit) := by
        refine ⟨isNumeral_takeWhile hwhole.1, fun hzero => ?_⟩
        obtain ⟨first, hfirst⟩ := List.length_eq_one_iff.mp (hwhole.2 hzero)
        rw [hfirst] at hzero ⊢
        rw [Option.some.inj hzero]
      have hunsigned : unsigned = unsigned.takeWhile Char.isDigit ++ (pointed ++ scaled) := by
        rw [← hbehind, List.takeWhile_append_dropWhile]
      have hnumbers := Numbers.literal negative hisWhole hfractions hexponents
      rw [← hunsigned] at hnumbers
      split at hsign
      · obtain ⟨rfl, rfl⟩ := Prod.mk.inj hsign
        exact hnumbers
      · obtain ⟨rfl, rfl⟩ := Prod.mk.inj hsign
        exact hnumbers
  · intro h
    obtain ⟨negative, isWhole, fractions, exponents⟩ := h
    rename_i whole pointed fraction scaled exponent
    have hends := endsNumeral_append fractions exponents
    have htake := takeWhile_isDigit isWhole.toIsNumeral hends
    have hdrop := dropWhile_isDigit isWhole.toIsNumeral hends
    have hfraction := readFraction?_append fractions exponents
    obtain ⟨e, he, rfl⟩ := Option.map_eq_some_iff.mp (readExponent?_eq_some_iff.mpr exponents)
    obtain ⟨first, others, rfl⟩ := List.exists_cons_of_ne_nil isWhole.nonempty
    have hleading : first = '0' → others = [] := by
      rintro rfl
      exact List.tail_eq_of_cons_eq (isWhole.leading rfl)
    have hunsigned : first ≠ '-' := by
      rintro rfl
      exact absurd (isWhole.isDigit '-' List.mem_cons_self) (by decide)
    rw [List.cons_append] at htake hdrop
    cases negative <;>
      simp +contextual [read?, htake, hdrop, hleading, hunsigned, hfraction, he]


/-! ### What is derived is found -/

namespace Grammar

open Token

theorem isWordPart_of_isDigit {c : Char} (h : c.isDigit = true) : isWordPart c = true := by
  simp [isWordPart, Char.isAlphanum, h]

theorem Exponents.isWordPart {scaled : List Char} {exponent : Option Int}
    (h : Exponents scaled exponent) : ∀ c ∈ scaled, isWordPart c = true := by
  cases h with
  | none => simp
  | @some letter sign negative digits isLetter signs numeral =>
    have hletter : Token.isWordPart letter = true := by
      rcases isLetter with rfl | rfl <;> decide
    have hsign : ∀ c ∈ sign, Token.isWordPart c = true := by
      cases signs <;> exact List.all_eq_true.mp (by decide)
    have hdigits : ∀ c ∈ digits, Token.isWordPart c = true :=
      fun c hc => isWordPart_of_isDigit (numeral.isDigit c hc)
    simpa [or_imp, forall_and] using ⟨hletter, hsign, hdigits⟩

theorem Fractions.isWordPart {pointed : List Char} {fraction : Option (List Char)}
    (h : Fractions pointed fraction) : ∀ c ∈ pointed, isWordPart c = true := by
  cases h with
  | none => simp
  | some numeral =>
    exact List.forall_mem_cons.mpr
      ⟨by decide, fun c hc => isWordPart_of_isDigit (numeral.isDigit c hc)⟩

theorem Numbers.isWordPart {word : List Char} {literal : Literal} (h : Numbers word literal) :
    ∀ c ∈ word, isWordPart c = true := by
  obtain ⟨negative, isWhole, fractions, exponents⟩ := h
  have hsign : ∀ c ∈ (if negative then ['-'] else []), Token.isWordPart c = true := by
    cases negative <;> exact List.all_eq_true.mp (by decide)
  intro c hc
  simp only [List.mem_append] at hc
  rcases hc with hc | hc | hc | hc
  · exact hsign c hc
  · exact isWordPart_of_isDigit (isWhole.isDigit c hc)
  · exact fractions.isWordPart c hc
  · exact exponents.isWordPart c hc

theorem Numbers.ne_nil {word : List Char} {literal : Literal} (h : Numbers word literal) :
    word ≠ [] := by
  obtain ⟨negative, isWhole, fractions, exponents⟩ := h
  simp [isWhole.nonempty]

theorem Words.isWordPart {word : List Char} {token : Token} (h : Words word token) :
    ∀ c ∈ word, isWordPart c = true := by
  cases h with
  | number numbers => exact numbers.isWordPart
  | _ => exact List.all_eq_true.mp (by decide)

theorem Words.ne_nil {word : List Char} {token : Token} (h : Words word token) : word ≠ [] := by
  cases h with
  | number numbers => exact numbers.ne_nil
  | _ => decide

theorem Words.ofWord_eq {word : List Char} {token : Token} (h : Words word token) :
    ofWord word = token ∧ token ≠ .fault := by
  cases h with
  | @number word literal numbers =>
    have hread := Literal.read?_eq_some_iff.mpr numbers
    -- None of the three words is a literal.
    have hne (other : List Char) (hother : read? other = none) : word ≠ other := by
      rintro rfl
      rw [hread] at hother
      cases hother
    have hnull := hne ['n', 'u', 'l', 'l'] rfl
    have htrue := hne ['t', 'r', 'u', 'e'] rfl
    have hfalse := hne ['f', 'a', 'l', 's', 'e'] rfl
    simp [ofWord, hnull, htrue, hfalse, hread]
  | _ => exact ⟨rfl, Token.noConfusion⟩

theorem of_isWordPart {c : Char} (h : isWordPart c = true) : isBlank c = false ∧ c ≠ '"' := by
  constructor
  · refine Bool.eq_false_iff.mpr fun hblank => ?_
    simp only [isBlank, Bool.or_eq_true, beq_iff_eq] at hblank
    rcases hblank with ((rfl | rfl) | rfl) | rfl <;> exact absurd h (by decide)
  · rintro rfl
    exact absurd h (by decide)

theorem of_ofPunctuation? {c : Char} {token : Token} (h : ofPunctuation? c = some token) :
    isBlank c = false ∧ c ≠ '"' ∧ isWordPart c = false := by
  unfold ofPunctuation? at h
  split at h
  all_goals first | contradiction | decide

/-- The state between two tokens. -/
def betweenTokens (found : List Token) : Scan := ⟨.between, found⟩

theorem foldl_word (letters : List Char) (found : List Token) {word : List Char}
    (h : ∀ c ∈ word, isWordPart c = true) :
    word.foldl Scan.step ⟨.word letters, found⟩ = ⟨.word (word.reverse ++ letters), found⟩ := by
  induction word generalizing letters with
  | nil => rfl
  | cons c rest ih =>
    rw [List.forall_mem_cons] at h
    have hstep : Scan.step ⟨.word letters, found⟩ c = ⟨.word (c :: letters), found⟩ := by
      simp [Scan.step, h.1]
    rw [List.foldl_cons, hstep, ih (c :: letters) h.2]
    simp

/-- Where a word ends, its token has been found. -/
theorem finish_word {letters : List Char} {found : List Token} {token : Token} {text : List Char}
    (hword : ofWord letters.reverse = token) (hfault : token ≠ .fault)
    (hends : endsWord text = true) :
    (text.foldl Scan.step ⟨.word letters, found⟩).finish =
      (text.foldl Scan.step (betweenTokens (token :: found))).finish := by
  cases text with
  | nil => simp [Scan.finish, betweenTokens, hword]
  | cons c rest =>
    have hpart : isWordPart c = false := by simpa [endsWord] using hends
    have hstep : Scan.step ⟨.word letters, found⟩ c =
        Scan.step (betweenTokens (token :: found)) c := by
      simp only [Scan.step, betweenTokens, hpart, hword, Bool.false_eq_true, if_false]
    rw [List.foldl_cons, List.foldl_cons, hstep]

theorem foldl_contents {inner : List Char} {units : List Nat} (h : Contents inner units)
    (before : List Nat) (found : List Token) :
    inner.foldl Scan.step ⟨.text before, found⟩ = ⟨.text (units.reverse ++ before), found⟩ := by
  induction h generalizing before with
  | nil => rfl
  | @plain c text units quote_ne backslash_ne printable rest ih =>
    have hstep : Scan.step ⟨.text before, found⟩ c = ⟨.text (c.toNat :: before), found⟩ := by
      simp [Scan.step, quote_ne, backslash_ne, Nat.not_lt.mpr printable]
    rw [List.foldl_cons, hstep, ih]
    simp
  | @escaped letter c text units unescape rest ih =>
    have hletter : letter ≠ 'u' := by
      rintro rfl
      cases unescape
    have hstep : Scan.step ⟨.escape before, found⟩ letter =
        ⟨.text (c.toNat :: before), found⟩ := by
      simp [Scan.step, hletter, unescape]
    have hbackslash : Scan.step ⟨.text before, found⟩ '\\' = ⟨.escape before, found⟩ := rfl
    rw [List.foldl_cons, List.foldl_cons, hbackslash, hstep, ih]
    simp
  | @unicode c₁ c₂ c₃ c₄ d₁ d₂ d₃ d₄ text units digit₁ digit₂ digit₃ digit₄ rest ih =>
    have hstart : ['\\', 'u'].foldl Scan.step ⟨.text before, found⟩ =
        ⟨.unicode before 4 0, found⟩ := rfl
    have hdigits : [c₁, c₂, c₃, c₄].foldl Scan.step ⟨.unicode before 4 0, found⟩ =
        ⟨.text ((16 * (16 * (16 * d₁ + d₂) + d₃) + d₄) :: before), found⟩ := by
      simp [Scan.step, digit₁, digit₂, digit₃, digit₄]
    have hsplit : '\\' :: 'u' :: c₁ :: c₂ :: c₃ :: c₄ :: text =
        ['\\', 'u'] ++ ([c₁, c₂, c₃, c₄] ++ text) := rfl
    rw [hsplit, List.foldl_append, hstart, List.foldl_append, hdigits, ih]
    simp

/-- The tokens a text is made of are found behind those found before. -/
theorem finish_of_lexes {text : List Char} {tokens : List Token} (h : Lexes text tokens)
    (found : List Token) :
    (text.foldl Scan.step (betweenTokens found)).finish = found.reverse ++ tokens := by
  induction h generalizing found with
  | stop => simp [betweenTokens, Scan.finish]
  | @blank c text tokens isBlank rest ih =>
    have hstep : Scan.step (betweenTokens found) c = betweenTokens found := by
      simp [Scan.step, betweenTokens, Scan.fresh, isBlank]
    rw [List.foldl_cons, hstep, ih]
  | @mark c token text tokens ofPunctuation rest ih =>
    obtain ⟨hblank, hquote, hpart⟩ := of_ofPunctuation? ofPunctuation
    have hstep : Scan.step (betweenTokens found) c = betweenTokens (token :: found) := by
      simp [Scan.step, betweenTokens, Scan.fresh, hblank, hquote, hpart, ofPunctuation]
    rw [List.foldl_cons, hstep, ih]
    simp
  | @word word token text tokens words ends rest ih =>
    obtain ⟨hword, hfault⟩ := words.ofWord_eq
    obtain ⟨first, others, rfl⟩ := List.exists_cons_of_ne_nil words.ne_nil
    obtain ⟨hfirst, hothers⟩ := List.forall_mem_cons.mp words.isWordPart
    obtain ⟨hblank, hquote⟩ := of_isWordPart hfirst
    have hstep : Scan.step (betweenTokens found) first = ⟨.word [first], found⟩ := by
      simp [Scan.step, betweenTokens, Scan.fresh, hblank, hquote, hfirst]
    rw [List.cons_append, List.foldl_cons, hstep, List.foldl_append, foldl_word _ _ hothers,
      finish_word (by simpa using hword) hfault ends, ih]
    simp
  | @string inner units text tokens contents rest ih =>
    have hopen : Scan.step (betweenTokens found) '"' = ⟨.text [], found⟩ := rfl
    have hclose : Scan.step ⟨.text units.reverse, found⟩ '"' =
        betweenTokens (.string ((join? units).map String.ofList) :: found) := by
      simp [Scan.step, betweenTokens]
    rw [List.foldl_cons, hopen, List.foldl_append, foldl_contents contents, List.append_nil,
      List.foldl_cons, hclose, ih]
    simp

theorem scan_of_lexes {text : List Char} {tokens : List Token} (h : Lexes text tokens) :
    scan text = tokens :=
  finish_of_lexes h []

/-! ### What is found is derived -/

theorem words_of_ofWord {word : List Char} {token : Token} (h : ofWord word = token)
    (hfault : token ≠ .fault) : Words word token := by
  unfold ofWord at h
  split at h
  · rename_i heq
    rw [eq_of_beq heq, ← h]
    exact .nullWord
  split at h
  · rename_i heq
    rw [eq_of_beq heq, ← h]
    exact .trueWord
  split at h
  · rename_i heq
    rw [eq_of_beq heq, ← h]
    exact .falseWord
  split at h
  · rename_i literal hread
    rw [← h]
    exact .number (Literal.read?_eq_some_iff.mp hread)
  · exact absurd h.symm hfault

theorem Lexes.fault_not_mem {text : List Char} {tokens : List Token} (h : Lexes text tokens) :
    .fault ∉ tokens := by
  induction h with
  | stop => simp
  | blank isBlank rest ih => exact ih
  | mark ofPunctuation rest ih =>
    intro hmem
    rcases List.mem_cons.mp hmem with rfl | hmem
    · unfold ofPunctuation? at ofPunctuation
      split at ofPunctuation <;> simp at ofPunctuation
    · exact ih hmem
  | word words ends rest ih =>
    intro hmem
    rcases List.mem_cons.mp hmem with rfl | hmem
    · exact words.ofWord_eq.2 rfl
    · exact ih hmem
  | string contents rest ih => simpa using ih

theorem Contents.append {inner more : List Char} {units others : List Nat}
    (h : Contents inner units) (hmore : Contents more others) :
    Contents (inner ++ more) (units ++ others) := by
  induction h with
  | nil => exact hmore
  | plain quote_ne backslash_ne printable rest ih => exact .plain quote_ne backslash_ne printable ih
  | escaped unescape rest ih => exact .escaped unescape ih
  | unicode digit₁ digit₂ digit₃ digit₄ rest ih => exact .unicode digit₁ digit₂ digit₃ digit₄ ih

/-- The tokens found are those of the text, whatever stands behind it. -/
def Fronts (text : List Char) (found : List Token) : Prop :=
  ∀ ⦃behind tokens⦄, Lexes behind tokens → Lexes (text ++ behind) (found.reverse ++ tokens)

/-- The tokens found are those of the text, if no word goes on behind it. -/
def FrontsWord (text : List Char) (found : List Token) : Prop :=
  ∀ ⦃behind tokens⦄, endsWord behind = true → Lexes behind tokens →
    Lexes (text ++ behind) (found.reverse ++ tokens)

/-- The hexadecimal digits of an escape read so far. -/
structure HexDigits (digits : List Char) (missing code : Nat) : Prop where
  length_eq : digits.length + missing = 4
  exists_values : ∃ values : List Nat, digits.map hexDigit? = values.map some ∧
    code = values.foldl (fun code digit => 16 * code + digit) 0

theorem HexDigits.none : HexDigits [] 4 0 := ⟨rfl, [], rfl, rfl⟩

theorem HexDigits.more {digits : List Char} {missing code digit : Nat} {c : Char}
    (h : HexDigits digits (missing + 1) code) (hdigit : hexDigit? c = some digit) :
    HexDigits (digits ++ [c]) missing (16 * code + digit) := by
  obtain ⟨hlength, values, hvalues, rfl⟩ := h
  refine ⟨?_, values ++ [digit], by simp [hvalues, hdigit], by simp⟩
  rw [List.length_append, List.length_singleton]
  omega

theorem HexDigits.contents {digits : List Char} {code : Nat} (h : HexDigits digits 0 code) :
    Contents ('\\' :: 'u' :: digits) [code] := by
  obtain ⟨hlength, values, hvalues, rfl⟩ := h
  have hvaluesLength : digits.length = values.length := by
    simpa using congrArg List.length hvalues
  match digits, values, hlength, hvaluesLength, hvalues with
  | [c₁, c₂, c₃, c₄], [d₁, d₂, d₃, d₄], _, _, hvalues =>
    simp only [List.map_cons, List.map_nil, List.cons.injEq, and_true] at hvalues
    obtain ⟨digit₁, digit₂, digit₃, digit₄⟩ := hvalues
    have hcontents := Contents.unicode digit₁ digit₂ digit₃ digit₄ .nil
    simpa using hcontents

/-- What the characters of a text have come to. -/
inductive Scanned : List Char → Scan → Prop
  | between {text found} (fronts : Fronts text found) : Scanned text ⟨.between, found⟩
  | word {text letters found} (fronts : Fronts text found) (letters_ne : letters ≠ [])
      (parts : ∀ c ∈ letters, isWordPart c = true) :
      Scanned (text ++ letters.reverse) ⟨.word letters, found⟩
  | text {text inner units found} (fronts : FrontsWord text found)
      (contents : Contents inner units.reverse) :
      Scanned (text ++ '"' :: inner) ⟨.text units, found⟩
  | escape {text inner units found} (fronts : FrontsWord text found)
      (contents : Contents inner units.reverse) :
      Scanned (text ++ '"' :: (inner ++ ['\\'])) ⟨.escape units, found⟩
  | unicode {text inner units digits missing code found} (fronts : FrontsWord text found)
      (contents : Contents inner units.reverse) (hex : HexDigits digits missing code)
      (missing_pos : 0 < missing) :
      Scanned (text ++ '"' :: (inner ++ '\\' :: 'u' :: digits))
        ⟨.unicode units missing code, found⟩
  | stopped {text found} (fault : .fault ∈ found) : Scanned text ⟨.stopped, found⟩

theorem Scanned.stop (text : List Char) (found : List Token) : Scanned text (Scan.stop found) :=
  .stopped List.mem_cons_self

theorem Fronts.frontsWord {text : List Char} {found : List Token} (h : Fronts text found) :
    FrontsWord text found :=
  fun _ _ _ rest => h rest

/-- A whole word in front of a text with which it does not go on. -/
theorem Fronts.frontsWord_append {text word : List Char} {found : List Token} {token : Token}
    (h : Fronts text found) (hwords : Words word token) :
    FrontsWord (text ++ word) (token :: found) := by
  intro behind tokens hends rest
  have hlexes := h (.word hwords hends rest)
  simpa using hlexes

/-- A string in front of any text. -/
theorem FrontsWord.fronts_string {text inner : List Char} {units : List Nat} {found : List Token}
    (h : FrontsWord text found) (hcontents : Contents inner units) :
    Fronts (text ++ '"' :: (inner ++ ['"']))
      (.string ((join? units).map String.ofList) :: found) := by
  intro behind tokens rest
  have hlexes := h rfl (.string hcontents rest)
  simpa using hlexes

theorem Scanned.fresh {text : List Char} {found : List Token} {c : Char}
    (hword : FrontsWord text found) (hfronts : isWordPart c = true → Fronts text found) :
    Scanned (text ++ [c]) (Scan.fresh found c) := by
  unfold Scan.fresh
  split
  · rename_i hblank
    refine .between fun behind tokens rest => ?_
    have hends : endsWord (c :: behind) = true := by
      rw [endsWord, Bool.not_eq_true', ← Bool.not_eq_true]
      intro hpart
      rw [(of_isWordPart hpart).1] at hblank
      exact Bool.false_ne_true hblank
    simpa using hword hends (.blank hblank rest)
  split
  · rename_i hquote
    rw [eq_of_beq hquote]
    exact .text hword .nil
  split
  · rename_i hpart
    exact .word (hfronts hpart) (List.cons_ne_nil c []) (by simpa using hpart)
  split
  · rename_i token hmark
    refine .between fun behind tokens rest => ?_
    have hends : endsWord (c :: behind) = true := by
      rw [endsWord, (of_ofPunctuation? hmark).2.2, Bool.not_false]
    simpa using hword hends (.mark hmark rest)
  · exact .stop _ _

theorem Scanned.step {text : List Char} {scan : Scan} (h : Scanned text scan) (c : Char) :
    Scanned (text ++ [c]) (scan.step c) := by
  cases h with
  | between fronts => exact .fresh fronts.frontsWord fun _ => fronts
  | @word text letters found fronts letters_ne parts =>
    simp only [Scan.step]
    split
    · rename_i hpart
      have hscanned := Scanned.word fronts (List.cons_ne_nil c letters)
        (List.forall_mem_cons.mpr ⟨hpart, parts⟩)
      simpa using hscanned
    · rename_i hpart
      split
      · exact .stop _ _
      · rename_i hfault
        have hwords := words_of_ofWord (rfl : ofWord letters.reverse = _) hfault
        exact .fresh (fronts.frontsWord_append hwords) fun hc => absurd hc hpart
  | @text text inner units found fronts contents =>
    simp only [Scan.step]
    split
    · rename_i hquote
      rw [eq_of_beq hquote, List.append_assoc, List.cons_append]
      exact .between (fronts.fronts_string contents)
    split
    · rename_i hbackslash
      rw [eq_of_beq hbackslash, List.append_assoc, List.cons_append]
      exact .escape fronts contents
    split
    · exact .stop _ _
    · rename_i hquote hbackslash hprintable
      have hplain := contents.append (.plain (by simpa using hquote) (by simpa using hbackslash)
        (Nat.not_lt.mp hprintable) .nil)
      rw [List.append_assoc, List.cons_append]
      exact .text fronts (by simpa using hplain)
  | @escape text inner units found fronts contents =>
    simp only [Scan.step]
    split
    · rename_i hletter
      have hscanned := Scanned.unicode fronts contents .none (Nat.succ_pos 3)
      rw [eq_of_beq hletter]
      simpa using hscanned
    · split
      · rename_i plain hplain
        have hescaped := contents.append (.escaped hplain .nil)
        rw [← List.reverse_cons] at hescaped
        simpa using Scanned.text fronts hescaped
      · exact .stop _ _
  | @unicode text inner units digits missing code found fronts contents hex missing_pos =>
    simp only [Scan.step]
    split
    · exact .stop _ _
    · rename_i digit hdigit
      obtain ⟨missing, rfl⟩ : ∃ n, missing = n + 1 := ⟨missing - 1, by omega⟩
      have hmore := hex.more hdigit
      split
      · obtain rfl : missing = 0 := by omega
        have hunicode := contents.append hmore.contents
        rw [← List.reverse_cons] at hunicode
        simpa using Scanned.text fronts hunicode
      · have hscanned := Scanned.unicode fronts contents hmore (by omega)
        simpa using hscanned
  | stopped fault => exact .stopped fault

theorem Scanned.foldl {text : List Char} {scan : Scan} (h : Scanned text scan)
    (behind : List Char) : Scanned (text ++ behind) (behind.foldl Scan.step scan) := by
  induction behind generalizing text scan with
  | nil => rwa [List.append_nil]
  | cons c rest ih =>
    have hrest := ih (h.step c)
    rwa [List.append_assoc] at hrest

/-- At the end of the text nothing may be left unfinished but a word. -/
theorem Scanned.lexes {text : List Char} {scan : Scan} (h : Scanned text scan)
    (hfault : .fault ∉ scan.finish) : Lexes text scan.finish := by
  cases h with
  | @between text found fronts =>
    have hlexes := fronts .stop
    rwa [List.append_nil, List.append_nil] at hlexes
  | @word text letters found fronts letters_ne parts =>
    simp only [Scan.finish, List.reverse_cons, List.mem_append, List.mem_singleton, not_or]
      at hfault ⊢
    have hwords := words_of_ofWord (rfl : ofWord letters.reverse = _) (Ne.symm hfault.2)
    have hlexes := fronts (.word hwords rfl .stop)
    rwa [List.append_nil] at hlexes
  | text fronts contents => simp [Scan.finish] at hfault
  | escape fronts contents => simp [Scan.finish] at hfault
  | unicode fronts contents hex missing_pos => simp [Scan.finish] at hfault
  | stopped fault => exact absurd (by simpa [Scan.finish] using fault) hfault

/-- The tokens found in a text are those it is made of, if no fault is among them. -/
theorem scan_eq_iff {text : List Char} {tokens : List Token} :
    scan text = tokens ∧ .fault ∉ tokens ↔ Lexes text tokens := by
  constructor
  · rintro ⟨rfl, hfault⟩
    have hstart : Scanned [] Scan.start := .between fun _ _ rest => rest
    have hscanned := hstart.foldl text
    rw [List.nil_append] at hscanned
    exact hscanned.lexes hfault
  · exact fun h => ⟨scan_of_lexes h, h.fault_not_mem⟩

end Grammar

end Json

end PathQuery
