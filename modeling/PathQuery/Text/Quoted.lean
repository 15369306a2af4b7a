import PathQuery.Text.Hidden
/-!
# Quoted text in reports

A name or a path is shown in a report between double quotes, so that nothing in it can be
overlooked: the usual control characters have a letter of their own, a quote or backslash has a
backslash in front, and any other character that is not shown as itself is written by its code
point.
-/

namespace PathQuery.Text

/-- A character between the quotes. -/
def shown (c : Char) : List Char :=
  match c with
  | '\x00' => ['\\', '0']
  | '\t' => ['\\', 't']
  | '\r' => ['\\', 'r']
  | '\n' => ['\\', 'n']
  | '\\' => ['\\', '\\']
  | '"' => ['\\', '"']
  | c =>
    if isHidden c then '\\' :: 'u' :: '\x7b' :: Nat.toDigits 16 c.toNat ++ ['\x7d'] else [c]

def quoted (s : String) : String := String.ofList ('"' :: s.toList.flatMap shown ++ ['"'])

end PathQuery.Text
