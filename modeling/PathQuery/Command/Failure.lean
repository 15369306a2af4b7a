import PathQuery.Command.FileTree
import PathQuery.Query.Error
import PathQuery.Schema.Error
import PathQuery.Value.Decode
/-!
# Failures of a command

A failure concerns one path. Its message says what was attempted, on which path, and what went
wrong.
-/

namespace PathQuery.Command

/-- What a file is read as. -/
inductive Role where
  | types
  | spec
  deriving DecidableEq, Repr

def Role.name : Role → String
  | types => "types file"
  | spec => "query spec"

inductive Failure where
  | unreachable (path : String) (fault : FileTree.Fault)
  | unreadable (role : Role) (path : String) (fault : FileTree.Fault)
  | malformed (role : Role) (path : String) (fault : Json.Fault)
  | invalidTypes (path : String) (error : Schema.Error)
  | uncompiled (path : String) (error : Query.Error)

namespace Failure

def text : Failure → String
  | unreachable path fault =>
    s!"IO error for operation on {path}: {fault.message}: {fault.message}"
  | unreadable role path fault =>
    s!"Failure reading {role.name} {Text.quoted path}: {fault.message}"
  | malformed role path fault =>
    s!"Failure parsing {role.name} {Text.quoted path}: {fault.message}"
  | invalidTypes path error =>
    s!"Invalid type definitions in {Text.quoted path}: {error.message}"
  | uncompiled path error =>
    s!"Failure compiling query spec {Text.quoted path}: {error.message}"

def message (failure : Failure) : String := "❌ " ++ failure.text

end Failure

end PathQuery.Command
