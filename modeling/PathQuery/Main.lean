import PathQuery.Command.Run
import PathQuery.Command.Verbosity
/-!
# The program

Everything the program does outside itself: it reads its arguments, one setting of the environment
and the files that the arguments name, and it prints what a run leaves behind. The log goes to the
standard error output, so the standard output holds nothing but compiled queries.
-/

namespace PathQuery.Program

open Command

/-- The tree of what is on the disk at and below a path. -/
partial def load (path : String) : IO FileTree := do
  let here ← IO.currentDir
  let place := here / path
  if ← place.isDir then
    let entries ← place.readDir
    let entries ← entries.toList.mapM fun entry => do
      let tree ← load (FileTree.entryPath path entry.fileName)
      return (entry.fileName, tree)
    return .directory entries
  else
    let bytes ← IO.FS.readBinFile path
    return .file (String.fromUTF8? bytes)

/-- Another path to the same place that is no longer than it has to be, so that the length of the
given path does not keep what is below it from being loaded. -/
def resolve (path : String) : IO String := do
  let here ← IO.currentDir
  try
    let place ← IO.FS.realPath (here / path)
    return place.toString
  catch _ => return path

/-- What a path leads to on the disk. Any other trouble with the disk ends the program. -/
def reach (path : String) : IO (Except FileTree.Fault FileTree) := do
  match FileTree.textFault? path with
  | some fault => return .error fault
  | none =>
    try
      let tree ← load (← resolve path)
      return .ok tree
    catch e =>
      match e with
      | .noFileOrDirectory _ _ _ => return .error .missing
      | .inappropriateType _ _ _ => return .error .notDirectory
      | .invalidArgument _ _ "name too long" => return .error .tooLong
      | e => throw e

/-- The paths that a command line names, with what they lead to. -/
def storage (invocation : Invocation) : IO Storage := do
  let paths := match invocation.compile with
    | none => []
    | some options => options.types :: options.paths
  let places ← paths.mapM fun path => do
    let place ← reach path
    return (path, place)
  return fun path => (places.lookup path).getD (.error .missing)

def log (threshold level : Level) (message : String) : IO Unit :=
  if level.shownAt threshold then IO.eprintln s!"{level.name} {message}" else pure ()

def run (invocation : Invocation) : IO UInt32 := do
  let setting ← IO.getEnv "LOG_LEVEL"
  let (threshold, warning) := chooseLevel invocation.verbose setting
  warning.forM (log threshold .warn)
  let storage ← storage invocation
  let report := invocation.run storage
  report.notes.forM fun event => log threshold event.level event.message
  report.outcome.stdout.forM fun text => IO.println text
  report.outcome.stderr.forM fun text => IO.eprintln text
  return report.outcome.exitCode

end PathQuery.Program

/-- Compile the queries that the arguments name. -/
def main (arguments : List String) : IO UInt32 := do
  match PathQuery.Command.Invocation.ofArguments arguments with
  | .ok invocation => PathQuery.Program.run invocation
  | .error refusal =>
    if refusal.exitCode == 0 then IO.print refusal.message else IO.eprint refusal.message
    return refusal.exitCode
