import PathQuery.Json.Literal
/-!
# JSON tokens

A text is cut into tokens by one pass over its characters. The pass never gives up: where the text
stops being JSON a single `fault` token stands, and what follows it is not looked at. A string whose
escapes are spelled correctly but stand for no text, because a surrogate has no partner, is still
a token; it has no content.
-/

namespace PathQuery.Json

inductive Token where
  | openArray
  | closeArray
  | openObject
  | closeObject
  | comma
  | colon
  | null
  | bool (b : Bool)
  | number (literal : Literal)
  | string (content : Option String)
  | fault
  deriving DecidableEq, Repr

namespace Token

def isHigh (unit : Nat) : Bool := 0xD800 ≤ unit && unit < 0xDC00

def isLow (unit : Nat) : Bool := 0xDC00 ≤ unit && unit < 0xE000

/-- The characters behind code points and surrogates: two surrogates that belong together make one
character, and one that stands alone makes none. -/
def join? : List Nat → Option (List Char)
  | [] => some []
  | high :: low :: rest =>
    if isHigh high && isLow low then
      (join? rest).map (Char.ofNat (0x10000 + (high - 0xD800) * 0x400 + (low - 0xDC00)) :: ·)
    else if isHigh high || isLow high then none
    else (join? (low :: rest)).map (Char.ofNat high :: ·)
  | [unit] => if isHigh unit || isLow unit then none else some [Char.ofNat unit]

/-- The character an escape letter stands for. -/
def unescape? : Char → Option Char
  | '"' => some '"'
  | '\\' => some '\\'
  | '/' => some '/'
  | 'b' => some '\x08'
  | 'f' => some '\x0c'
  | 'n' => some '\n'
  | 'r' => some '\r'
  | 't' => some '\t'
  | _ => none

def hexDigit? (c : Char) : Option Nat :=
  if c.isDigit then some (c.toNat - '0'.toNat)
  else if 'a' ≤ c && c ≤ 'f' then some (c.toNat - 'a'.toNat + 10)
  else if 'A' ≤ c && c ≤ 'F' then some (c.toNat - 'A'.toNat + 10)
  else none

/-- The token spelled by a run of letters, digits, signs and points. -/
def ofWord (word : List Char) : Token :=
  if word == ['n', 'u', 'l', 'l'] then .null
  else if word == ['t', 'r', 'u', 'e'] then .bool true
  else if word == ['f', 'a', 'l', 's', 'e'] then .bool false
  else match Literal.read? word with
    | some literal => .number literal
    | none => .fault

def ofPunctuation? : Char → Option Token
  | '[' => some .openArray
  | ']' => some .closeArray
  | '\x7b' => some .openObject
  | '\x7d' => some .closeObject
  | ',' => some .comma
  | ':' => some .colon
  | _ => none

def isBlank (c : Char) : Bool := c == ' ' || c == '\t' || c == '\n' || c == '\r'

def isWordPart (c : Char) : Bool := c.isAlphanum || c == '-' || c == '+' || c == '.'

/-- Where the pass stands. Words and strings are gathered in reverse. -/
inductive Mode where
  | between
  | word (letters : List Char)
  | text (units : List Nat)
  | escape (units : List Nat)
  | unicode (units : List Nat) (missing : Nat) (code : Nat)
  | stopped
  deriving DecidableEq, Repr

/-- The mode, and the tokens found so far in reverse. -/
structure Scan where
  mode : Mode
  found : List Token
  deriving Repr

namespace Scan

def start : Scan := ⟨.between, []⟩

def stop (found : List Token) : Scan := ⟨.stopped, .fault :: found⟩

/-- A character outside words and strings. -/
def fresh (found : List Token) (c : Char) : Scan :=
  if isBlank c then ⟨.between, found⟩
  else if c == '"' then ⟨.text [], found⟩
  else if isWordPart c then ⟨.word [c], found⟩
  else match ofPunctuation? c with
    | some token => ⟨.between, token :: found⟩
    | none => stop found

def step (scan : Scan) (c : Char) : Scan :=
  match scan.mode with
  | .between => fresh scan.found c
  | .word letters =>
    if isWordPart c then ⟨.word (c :: letters), scan.found⟩
    else match ofWord letters.reverse with
      | .fault => stop scan.found
      | token => fresh (token :: scan.found) c
  | .text units =>
    if c == '"' then ⟨.between, .string ((join? units.reverse).map String.ofList) :: scan.found⟩
    else if c == '\\' then ⟨.escape units, scan.found⟩
    else if c.toNat < 0x20 then stop scan.found
    else ⟨.text (c.toNat :: units), scan.found⟩
  | .escape units =>
    if c == 'u' then ⟨.unicode units 4 0, scan.found⟩
    else match unescape? c with
      | some plain => ⟨.text (plain.toNat :: units), scan.found⟩
      | none => stop scan.found
  | .unicode units missing code =>
    match hexDigit? c with
    | none => stop scan.found
    | some digit =>
      let code := 16 * code + digit
      if missing ≤ 1 then ⟨.text (code :: units), scan.found⟩
      else ⟨.unicode units (missing - 1) code, scan.found⟩
  | .stopped => scan

def finish (scan : Scan) : List Token :=
  match scan.mode with
  | .between | .stopped => scan.found.reverse
  | .word letters => (ofWord letters.reverse :: scan.found).reverse
  | .text _ | .escape _ | .unicode _ _ _ => (.fault :: scan.found).reverse

end Scan

/-- The tokens of a text. -/
def scan (text : List Char) : List Token := (text.foldl Scan.step Scan.start).finish

end Token

end PathQuery.Json
