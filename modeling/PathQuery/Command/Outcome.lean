/-!
# What a command leaves behind

A command prints nothing itself. It answers with the text for the standard output, which holds
compiled artifacts only, the text for the standard error, which holds diagnostics only, and whether
the whole run counts as a success.
-/

namespace PathQuery.Command

structure Outcome where
  succeeded : Bool
  stdout : Option String
  stderr : Option String
  deriving DecidableEq, Repr

namespace Outcome

def exitCode (outcome : Outcome) : UInt32 := if outcome.succeeded then 0 else 1

def success (output : String) : Outcome := ⟨true, some output, none⟩

def failure (message : String) : Outcome := ⟨false, none, some message⟩

/-- One block of text per part, or nothing where there is no part. -/
def block (parts : List String) : Option String :=
  if parts.isEmpty then none else some ("\n".intercalate parts)

/-- Whatever succeeded is shown beside any failures, and one failure fails the run. -/
def ofParts (outputs failures : List String) : Outcome :=
  ⟨failures.isEmpty, block outputs, block failures⟩

end Outcome

end PathQuery.Command
