import PathQuery.Log
import PathQuery.Text.Blank
/-!
# How much to log

The level of the log comes from the command line or, failing that, from a setting in the
environment. A setting that names no level is reported and otherwise ignored.
-/

namespace PathQuery.Command

def defaultLevel : Level := .info

/-- The level a setting names, in upper or lower case (of ASCII letters only). -/
def levelNamed? (setting : String) : Option Level :=
  match String.ofList (setting.toList.map Char.toLower) with
  | "debug" | "verbose" => some .debug
  | "info" => some .info
  | "trace" => some .trace
  | "warn" => some .warn
  | _ => none

/-- The level to log at, and a warning about a setting that was ignored. White space around the
setting does not count. -/
def chooseLevel (verbose : Bool) (setting : Option String) : Level × Option String :=
  if verbose then (.debug, none)
  else match setting.map Text.trim with
    | none => (defaultLevel, none)
    | some setting =>
      match levelNamed? setting with
      | some level => (level, none)
      | none =>
        (defaultLevel, some s!"Invalid `LOG_LEVEL` environment variable value: `{setting}`")

end PathQuery.Command
