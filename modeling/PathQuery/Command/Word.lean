/-!
# Words of a command line

What a single argument looks like before its meaning is known: a long option with or without a
value, a cluster of short options, the separator after which nothing is an option, or a plain word.
-/

namespace PathQuery.Command

inductive Word where
  | separator
  | long (name : String) (value : Option String)
  | short (letters : List Char)
  | plain (text : String)
  deriving DecidableEq, Repr

namespace Word

/-- A long option ends at the first equals sign, and the rest is its value. A dash alone is plain.
-/
def ofText (text : String) : Word :=
  match text.toList with
  | ['-', '-'] => separator
  | '-' :: '-' :: cs =>
    long (String.ofList (cs.takeWhile (· != '=')))
      (match cs.dropWhile (· != '=') with
        | [] => none
        | _ :: value => some (String.ofList value))
  | '-' :: c :: cs => short (c :: cs)
  | _ => plain text

end Word

end PathQuery.Command
