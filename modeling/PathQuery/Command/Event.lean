import PathQuery.Query.Event
import PathQuery.Text.Quoted
/-!
# What is noted while a command runs
-/

namespace PathQuery.Command

inductive Event where
  | loaded (objects enums : Nat) (path : String)
  | scanning (paths : Nat)
  | skipped (path : String)
  | found (path : String)
  | unreachable (path : String)
  | proceeding (path : String) (extensions : List String)
  | gathered (files : Nat)
  | query (event : Query.Event)
  | succeeded (queries : Nat)
  | failed (failures files : Nat)
  deriving DecidableEq, Repr

namespace Event

def level : Event → Level
  | loaded _ _ _ | scanning _ | gathered _ => .debug
  | skipped _ | found _ | unreachable _ => .trace
  | proceeding _ _ => .warn
  | query event => event.level
  | succeeded _ => .info
  | failed _ _ => .error

def message : Event → String
  | loaded objects enums path =>
    s!"Loaded {objects} object types and {enums} enums from {Text.quoted path}."
  | scanning paths => s!"Scanning {paths} input paths..."
  | skipped path => s!"Skipping non-file: {Text.quoted path}."
  | found path => s!"Found file at {Text.quoted path}."
  | unreachable path =>
    "Encountered an error while iterating recursive filesystem entities at/under " ++
      s!"{Text.quoted path}."
  | proceeding path extensions =>
    s!"Proceeding to compile {Text.quoted path} even though it doesn't match any of the " ++
      "--query-spec-exts (" ++ ", ".intercalate (extensions.map fun e => s!"`{e}`") ++ ")."
  | gathered files => s!"Found {files} query spec files to be compiled."
  | query event => event.message
  | succeeded queries => s!"✅ Compiled {queries} query specs."
  | failed failures files => s!"{failures} of {files} query specs failed to compile."

end Event

end PathQuery.Command
