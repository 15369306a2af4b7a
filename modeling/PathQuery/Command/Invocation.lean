import PathQuery.Command.Options
/-!
# Command lines

The one command compiles queries. What stands in front of it are options of the program as a whole.
-/

namespace PathQuery.Command

/-- A command line that makes sense. Without a command the usage of the program is shown. -/
structure Invocation where
  verbose : Bool
  compile : Option Options
  deriving DecidableEq, Repr

namespace Invocation

def setVerbose (verbose : Bool) : Except Refusal Bool :=
  if verbose then .error .repeatedOption else .ok true

/-- Short options of the program, each a letter of one cluster. -/
def addLetter (verbose : Bool) : Char → Except Refusal Bool
  | 'v' => setVerbose verbose
  | 'h' => .error .showHelp
  | 'V' => .error .showVersion
  | _ => .error .unknownOption

def addLong (verbose : Bool) : String → Option String → Except Refusal Bool
  | "verbose", none => setVerbose verbose
  | "help", none => .error .showHelp
  | "version", none => .error .showVersion
  | "verbose", some _ | "help", some _ | "version", some _ => .error .unexpectedValue
  | _, _ => .error .unknownOption

/-- What may be asked for help on. -/
def helpOn : List String → Refusal
  | [] | ["compile"] | ["help"] => .showHelp
  | _ => .unknownCommand

/-- Behind the separator there is no command any more, so nothing may follow. -/
def behindSeparator (verbose : Bool) : List String → Except Refusal Invocation
  | [] => .ok ⟨verbose, none⟩
  | "compile" :: _ | "help" :: _ => .error .unknownOption
  | _ => .error .unknownCommand

def addWords (verbose : Bool) : List String → Except Refusal Invocation
  | [] => .ok ⟨verbose, none⟩
  | argument :: rest =>
    match Word.ofText argument with
    | .plain "compile" => (Options.ofArguments rest).map fun options => ⟨verbose, some options⟩
    | .plain "help" => .error (helpOn rest)
    | .plain _ => .error .unknownCommand
    | .separator => behindSeparator verbose rest
    | .long name value => do
      let verbose ← addLong verbose name value
      addWords verbose rest
    | .short letters => do
      let verbose ← letters.foldlM addLetter verbose
      addWords verbose rest

def ofArguments : List String → Except Refusal Invocation := addWords false

end Invocation

end PathQuery.Command
