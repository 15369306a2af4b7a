import PathQuery.Proofs.JsonReader
import PathQuery.Proofs.NumberText
/-!
# Written JSON is JSON

The compact text of a value is in the grammar of JSON and stands for that value. Only its floats
matter: one that is not finite is written as null, and whether the text of a finite one is read as
that float again is up to the reader, so it is a condition here.
-/

namespace PathQuery.Json

open Grammar

/-! ### Strings -/

theorem not_surrogate (c : Char) : Token.isHigh c.toNat = false ∧ Token.isLow c.toNat = false := by
  have hvalid : c.toNat < 0xD800 ∨ 0xDFFF < c.toNat ∧ c.toNat < 0x110000 := c.valid
  simp only [Token.isHigh, Token.isLow, Bool.and_eq_false_iff, decide_eq_false_iff_not]
  omega

theorem join?_map_toNat (chars : List Char) :
    Token.join? (chars.map Char.toNat) = some chars := by
  induction chars with
  | nil => rfl
  | cons c rest ih =>
    obtain ⟨hhigh, hlow⟩ := not_surrogate c
    cases rest with
    | nil => simp [Token.join?, hhigh, hlow]
    | cons next others =>
      rw [List.map_cons] at ih
      simp [Token.join?, hhigh, hlow, ih]

theorem hexDigit?_digitChar {n : Nat} (h : n < 16) :
    Token.hexDigit? (Nat.digitChar n) = some n := by
  have hall : ∀ n < 16, Token.hexDigit? (Nat.digitChar n) = some n := by decide
  exact hall n h

theorem contents_escape (c : Char) {text : List Char} {units : List Nat}
    (rest : Contents text units) : Contents (escape c ++ text) (c.toNat :: units) := by
  unfold escape
  split
  case h_8 hquote hbackslash _ _ _ _ _ =>
    split
    · -- A control character takes its two lower digits; the upper ones are zero.
      have hupper : Token.hexDigit? '0' = some 0 := rfl
      have hthird := hexDigit?_digitChar (show c.toNat / 16 < 16 by omega)
      have hfourth := hexDigit?_digitChar (show c.toNat % 16 < 16 by omega)
      have hcode : 16 * (16 * (16 * 0 + 0) + c.toNat / 16) + c.toNat % 16 = c.toNat := by omega
      have hunits := Contents.unicode hupper hupper hthird hfourth rest
      rwa [hcode] at hunits
    · rename_i hprintable
      exact .plain hquote hbackslash (Nat.not_lt.mp hprintable) rest
  all_goals exact .escaped rfl rest

theorem contents_flatMap (chars : List Char) :
    Contents (chars.flatMap escape) (chars.map Char.toNat) := by
  induction chars with
  | nil => exact .nil
  | cons c rest ih => exact contents_escape c ih

theorem lexes_quoted (s : String) {text : List Char} {tokens : List Token}
    (rest : Lexes text tokens) : Lexes (quoted s ++ text) (.string (some s) :: tokens) := by
  have hstring := Lexes.string (contents_flatMap s.toList) rest
  rw [join?_map_toNat, Option.map_some, String.ofList_toList] at hstring
  simpa [quoted] using hstring

/-! ### Values -/

mutual

def floats : Json → List Float
  | .number (.float x) => [x]
  | .array items => itemsFloats items
  | .object entries => entriesFloats entries
  | .null | .bool _ | .number (.int _) | .string _ => []

def itemsFloats : List Json → List Float
  | [] => []
  | item :: rest => floats item ++ itemsFloats rest

def entriesFloats : List (String × Json) → List Float
  | [] => []
  | (_, value) :: rest => floats value ++ entriesFloats rest

end

section

variable (float : Literal → Float)

/-- The text of the float is read as that float. -/
def ReadsBack (x : Float) : Prop :=
  ∀ literal, Numbers (Decimal.text x).toList literal → float literal = x

/-- Finite floats only, all of which are read back. -/
def Recovers (xs : List Float) : Prop :=
  ∀ x ∈ xs, Binary.isFinite x = true ∧ ReadsBack float x

/-- The characters are the tokens of the value, wherever a word may end. -/
def Spells (chars : List Char) (derives : List Token → Prop) : Prop :=
  ∃ tokens, derives tokens ∧ ∀ ⦃text behind⦄, endsWord text = true → Lexes text behind →
    Lexes (chars ++ text) (tokens ++ behind)

end

variable {float : Literal → Float}

theorem Recovers.append {xs ys : List Float} (h : Recovers float (xs ++ ys)) :
    Recovers float xs ∧ Recovers float ys :=
  ⟨fun x hx => h x (List.mem_append_left _ hx), fun x hx => h x (List.mem_append_right _ hx)⟩

theorem spells_int (n : Int) : Spells (intChars n) (Values float · (.number (.int n))) := by
  have hvalues := @Values.number float
    ⟨decide (n < 0), Nat.toDigits 10 n.natAbs, none, none⟩
  rw [value_intChars] at hvalues
  exact ⟨_, hvalues, fun _ _ hends rest => .word (.number (numbers_intChars n)) hends rest⟩

theorem spells_float {x : Float} (hfinite : Binary.isFinite x = true) (hback : ReadsBack float x) :
    Spells (Number.float x).chars (Values float · (.number (.float x))) := by
  obtain ⟨literal, hnumbers, hinteger⟩ := Decimal.numbers_text hfinite
  have hvalue : literal.value float = .float x := by
    simp [Literal.value, hinteger, hback literal hnumbers]
  have hvalues := @Values.number float literal
  rw [hvalue] at hvalues
  refine ⟨_, hvalues, fun _ _ hends rest => ?_⟩
  rw [Number.chars, if_pos hfinite]
  exact .word (.number hnumbers) hends rest

mutual

theorem spells_chars : ∀ {json : Json}, Recovers float json.floats →
    Spells json.chars (Values float · json)
  | .null, h => ⟨_, .null, fun _ _ hends rest => .word .nullWord hends rest⟩
  | .bool true, h => ⟨_, .bool true, fun _ _ hends rest => .word .trueWord hends rest⟩
  | .bool false, h => ⟨_, .bool false, fun _ _ hends rest => .word .falseWord hends rest⟩
  | .number (.int n), h => spells_int n
  | .number (.float x), h => by
    obtain ⟨hfinite, hback⟩ := h x List.mem_cons_self
    exact spells_float hfinite hback
  | .string s, h => ⟨_, .string s, fun _ _ _ rest => lexes_quoted s rest⟩
  | .array [], h => ⟨_, .emptyArray, fun _ _ _ rest => .mark rfl (.mark rfl rest)⟩
  | .array (item :: others), h => by
    obtain ⟨tokens, hitems, hlexes⟩ := spells_itemsChars (List.cons_ne_nil item others) h
    refine ⟨_, .array hitems, fun text behind _ rest => ?_⟩
    have hclosed : Lexes (']' :: text) (.closeArray :: behind) := .mark rfl rest
    simp only [chars, List.cons_append, List.append_assoc, List.nil_append]
    exact .mark rfl (hlexes rfl hclosed)
  | .object [], h => ⟨_, .emptyObject, fun _ _ _ rest => .mark rfl (.mark rfl rest)⟩
  | .object (entry :: others), h => by
    obtain ⟨tokens, hentries, hlexes⟩ := spells_entriesChars (List.cons_ne_nil entry others) h
    refine ⟨_, .object hentries, fun text behind _ rest => ?_⟩
    have hclosed : Lexes ('\x7d' :: text) (.closeObject :: behind) := .mark rfl rest
    simp only [chars, List.cons_append, List.append_assoc, List.nil_append]
    exact .mark rfl (hlexes rfl hclosed)

theorem spells_itemsChars : ∀ {items : List Json}, items ≠ [] →
    Recovers float (itemsFloats items) → Spells (itemsChars items) (Items float · items)
  | [], hne, h => absurd rfl hne
  | [item], hne, h => by
    obtain ⟨tokens, hvalues, hlexes⟩ := spells_chars h.append.1
    exact ⟨tokens, .last hvalues, hlexes⟩
  | item :: next :: others, hne, h => by
    obtain ⟨tokens, hvalues, hlexes⟩ := spells_chars h.append.1
    obtain ⟨more, hitems, hmore⟩ := spells_itemsChars (List.cons_ne_nil next others) h.append.2
    refine ⟨_, .more hvalues hitems, fun text behind hends rest => ?_⟩
    simp only [itemsChars, List.append_assoc, List.cons_append]
    exact hlexes rfl (.mark rfl (hmore hends rest))

theorem spells_entriesChars : ∀ {entries : List (String × Json)}, entries ≠ [] →
    Recovers float (entriesFloats entries) → Spells (entriesChars entries) (Entries float · entries)
  | [], hne, h => absurd rfl hne
  | [(key, value)], hne, h => by
    obtain ⟨tokens, hvalues, hlexes⟩ := spells_chars h.append.1
    refine ⟨_, .last hvalues, fun text behind hends rest => ?_⟩
    simp only [entriesChars, List.append_assoc, List.cons_append]
    exact lexes_quoted key (.mark rfl (hlexes hends rest))
  | (key, value) :: next :: others, hne, h => by
    obtain ⟨tokens, hvalues, hlexes⟩ := spells_chars h.append.1
    obtain ⟨more, hentries, hmore⟩ :=
      spells_entriesChars (List.cons_ne_nil next others) h.append.2
    refine ⟨_, .more hvalues hentries, fun text behind hends rest => ?_⟩
    simp only [entriesChars, List.append_assoc, List.cons_append]
    exact lexes_quoted key (.mark rfl (hlexes rfl (.mark rfl (hmore hends rest))))

end

/-- The compact text of a value stands for the value. -/
theorem denotes_compact {json : Json} (h : Recovers float json.floats) :
    Denotes float json.compact json := by
  obtain ⟨tokens, hvalues, hlexes⟩ := spells_chars h
  have htokens := @hlexes [] [] rfl .stop
  rw [List.append_nil, List.append_nil] at htokens
  refine ⟨tokens, ?_, hvalues⟩
  rwa [compact, String.toList_ofList]

end PathQuery.Json
