import PathQuery.Json.Token
/-!
# The grammar of JSON

The standard for JSON texts as two grammars. The lexical one says which tokens a text is made of,
with any blanks between them: six marks, three words, number literals and strings. The syntactic one
says which tokens make a value. Nesting has no limit, and the entries of an object are kept as they
come.

What a number stands for is exact if it has neither a point nor an exponent. How any other literal
becomes a float is left to the reader, so it is a parameter here.
-/

namespace PathQuery

/-- One decimal digit or more. -/
structure IsNumeral (digits : List Char) : Prop where
  nonempty : digits ≠ []
  isDigit : ∀ c ∈ digits, c.isDigit = true

/-- The digits in front of the point: a zero stands there only on its own. -/
structure IsWhole (digits : List Char) : Prop extends IsNumeral digits where
  leading : digits.head? = some '0' → digits = ['0']

namespace Json

namespace Literal

def isInteger (literal : Literal) : Bool := literal.fraction.isNone && literal.exponent.isNone

def value (float : Literal → Float) (literal : Literal) : Json.Number :=
  if literal.isInteger then
    .int (if literal.negative then -(Decimal.digitsValue literal.whole : Int)
      else Decimal.digitsValue literal.whole)
  else .float (float literal)

end Literal

namespace Grammar

/-! ### Numbers -/

/-- An optional sign, and whether it is the minus. -/
inductive Signs : List Char → Bool → Prop
  | none : Signs [] false
  | plus : Signs ['+'] false
  | minus : Signs ['-'] true

inductive Fractions : List Char → Option (List Char) → Prop
  | none : Fractions [] none
  | some {digits} (numeral : IsNumeral digits) : Fractions ('.' :: digits) (some digits)

inductive Exponents : List Char → Option Int → Prop
  | none : Exponents [] none
  | some {letter sign negative digits} (isLetter : letter = 'e' ∨ letter = 'E')
      (signs : Signs sign negative) (numeral : IsNumeral digits) :
      Exponents (letter :: (sign ++ digits))
        (some (if negative then -(Decimal.digitsValue digits : Int)
          else Decimal.digitsValue digits))

inductive Numbers : List Char → Literal → Prop
  | literal (negative : Bool) {whole pointed fraction scaled exponent} (isWhole : IsWhole whole)
      (fractions : Fractions pointed fraction) (exponents : Exponents scaled exponent) :
      Numbers ((if negative then ['-'] else []) ++ (whole ++ (pointed ++ scaled)))
        ⟨negative, whole, fraction, exponent⟩

/-! ### Tokens -/

/-- Letters, digits, signs and points that belong together. -/
inductive Words : List Char → Token → Prop
  | nullWord : Words ['n', 'u', 'l', 'l'] .null
  | trueWord : Words ['t', 'r', 'u', 'e'] (.bool true)
  | falseWord : Words ['f', 'a', 'l', 's', 'e'] (.bool false)
  | number {word literal} (numbers : Numbers word literal) : Words word (.number literal)

/-- What stands between quotes, and the code points and surrogates it is made of. -/
inductive Contents : List Char → List Nat → Prop
  | nil : Contents [] []
  | plain {c text units} (quote_ne : c ≠ '"') (backslash_ne : c ≠ '\\')
      (printable : 0x20 ≤ c.toNat) (rest : Contents text units) :
      Contents (c :: text) (c.toNat :: units)
  | escaped {letter c text units} (unescape : Token.unescape? letter = some c)
      (rest : Contents text units) : Contents ('\\' :: letter :: text) (c.toNat :: units)
  | unicode {c₁ c₂ c₃ c₄ d₁ d₂ d₃ d₄ text units} (digit₁ : Token.hexDigit? c₁ = some d₁)
      (digit₂ : Token.hexDigit? c₂ = some d₂) (digit₃ : Token.hexDigit? c₃ = some d₃)
      (digit₄ : Token.hexDigit? c₄ = some d₄) (rest : Contents text units) :
      Contents ('\\' :: 'u' :: c₁ :: c₂ :: c₃ :: c₄ :: text)
        ((16 * (16 * (16 * d₁ + d₂) + d₃) + d₄) :: units)

/-- Whether a word ends in front of the given text. -/
def endsWord : List Char → Bool
  | [] => true
  | c :: _ => !Token.isWordPart c

/-- The lexical grammar. -/
inductive Lexes : List Char → List Token → Prop
  | stop : Lexes [] []
  | blank {c text tokens} (isBlank : Token.isBlank c = true) (rest : Lexes text tokens) :
      Lexes (c :: text) tokens
  | mark {c token text tokens} (ofPunctuation : Token.ofPunctuation? c = some token)
      (rest : Lexes text tokens) : Lexes (c :: text) (token :: tokens)
  | word {word token text tokens} (words : Words word token) (ends : endsWord text = true)
      (rest : Lexes text tokens) : Lexes (word ++ text) (token :: tokens)
  | string {inner units text tokens} (contents : Contents inner units)
      (rest : Lexes text tokens) :
      Lexes ('"' :: (inner ++ '"' :: text))
        (.string ((Token.join? units).map String.ofList) :: tokens)

/-! ### Values -/

section

variable (float : Literal → Float)

mutual

/-- The syntactic grammar. -/
inductive Values : List Token → Json → Prop
  | null : Values [.null] .null
  | bool (b : Bool) : Values [.bool b] (.bool b)
  | number (literal : Literal) : Values [.number literal] (.number (literal.value float))
  | string (s : String) : Values [.string (some s)] (.string s)
  | emptyArray : Values [.openArray, .closeArray] (.array [])
  | array {tokens items} (inner : Items tokens items) :
      Values (.openArray :: (tokens ++ [.closeArray])) (.array items)
  | emptyObject : Values [.openObject, .closeObject] (.object [])
  | object {tokens entries} (inner : Entries tokens entries) :
      Values (.openObject :: (tokens ++ [.closeObject])) (.object entries)

/-- One value or more. -/
inductive Items : List Token → List Json → Prop
  | last {tokens item} (below : Values tokens item) : Items tokens [item]
  | more {tokens item others items} (below : Values tokens item) (rest : Items others items) :
      Items (tokens ++ .comma :: others) (item :: items)

/-- One key with its value or more. -/
inductive Entries : List Token → List (String × Json) → Prop
  | last {key tokens value} (below : Values tokens value) :
      Entries (.string (some key) :: .colon :: tokens) [(key, value)]
  | more {key tokens value others entries} (below : Values tokens value)
      (rest : Entries others entries) :
      Entries (.string (some key) :: .colon :: (tokens ++ .comma :: others))
        ((key, value) :: entries)

end

/-- A text is JSON and stands for the value. -/
def Denotes (text : String) (json : Json) : Prop :=
  ∃ tokens, Lexes text.toList tokens ∧ Values float tokens json

end

end Grammar

end Json

end PathQuery
