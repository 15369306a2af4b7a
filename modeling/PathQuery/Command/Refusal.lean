/-!
# Refused command lines

Why a command line is not carried out: it asks for something to be shown instead, or it makes no
sense.
-/

namespace PathQuery.Command

inductive Refusal where
  | showHelp
  | showVersion
  | unknownCommand
  | unknownOption
  | missingArgument
  | repeatedOption
  | invalidValue
  | unexpectedValue
  deriving DecidableEq, Repr

/-- What is shown when there is no command. -/
def usage : String :=
  "Usage: gqlshape [OPTIONS] [COMMAND]\n" ++
  "\n" ++
  "Commands:\n" ++
  "  compile  Compile query-spec files into GraphQL request payloads\n" ++
  "  help     Print this message or the help of the given subcommand(s)\n" ++
  "\n" ++
  "Options:\n" ++
  "  -v, --verbose  Enable verbose output. Overrides the `LOG_LEVEL` environment variable.\n" ++
  "  -h, --help     Print help\n" ++
  "  -V, --version  Print version\n"

namespace Refusal

/-- Only what is shown on request counts as a success. -/
def exitCode : Refusal → UInt32
  | showHelp | showVersion => 0
  | _ => 2

def message : Refusal → String
  | showHelp => usage
  | showVersion => "gqlshape 0.0.1\n"
  | unknownCommand => "error: unrecognized subcommand\n"
  | unknownOption => "error: unexpected argument found\n"
  | missingArgument => "error: the required arguments were not provided\n"
  | repeatedOption => "error: an argument cannot be used multiple times\n"
  | invalidValue => "error: a value is required for an argument but none was supplied\n"
  | unexpectedValue => "error: unexpected value for an argument\n"

end Refusal

end PathQuery.Command
