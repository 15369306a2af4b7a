import PathQuery.Selection
/-!
# Selections as text

A selection is written in two ways: indented, with one field on each line, and compactly on a single
line. Both write the same tokens and differ only in the blanks between them.
-/

namespace PathQuery.Selection

def Binding.text (binding : Binding) : String :=
  binding.argument ++ ": $" ++ binding.variableName

namespace Head

def labelText (head : Head) : String :=
  match head.label with
  | some label => label ++ ": "
  | none => ""

def argumentsText (head : Head) : String :=
  match head.arguments with
  | [] => ""
  | arguments => "(" ++ ", ".intercalate (arguments.map Binding.text) ++ ")"

/-- Label, name and arguments. -/
def text (head : Head) : String := head.labelText ++ head.name ++ head.argumentsText

end Head

namespace Node

/-- Two blanks for each level. -/
def indent (depth : Nat) : String := String.ofList (List.replicate (2 * depth) ' ')

mutual

/-- One line for a field, and for a branch the lines below it and one that closes it. -/
def indented (depth : Nat) : Node → String
  | leaf head => indent depth ++ head.text ++ "\n"
  | branch head [] => indent depth ++ head.text ++ " \x7b \x7d\n"
  | branch head (first :: rest) =>
    indent depth ++ head.text ++ " \x7b\n" ++
      (indented (depth + 1) first ++ allIndented (depth + 1) rest) ++
      indent depth ++ "\x7d\n"

def allIndented (depth : Nat) : List Node → String
  | [] => ""
  | node :: rest => indented depth node ++ allIndented depth rest

end

mutual

def compact : Node → String
  | leaf head => head.text
  | branch head children => head.text ++ " \x7b" ++ allCompact children ++ " \x7d"

/-- Each node after a blank. -/
def allCompact : List Node → String
  | [] => ""
  | node :: rest => " " ++ compact node ++ allCompact rest

end

end Node

end PathQuery.Selection
