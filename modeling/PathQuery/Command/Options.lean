import PathQuery.Command.Refusal
import PathQuery.Command.Word
/-!
# Options of a compile run

The arguments are read from left to right. An option that takes a value stays open until the next
word has been seen, and so does a run of paths; when it is closed, what it gathered is checked and
kept. An argument that is no option at all is refused without closing what is open.
-/

namespace PathQuery.Command

structure Options where
  documentOnly : Bool
  extensions : List String
  types : String
  paths : List String
  deriving DecidableEq, Repr

namespace Options

/-- What plain words are gathered for. -/
inductive Slot where
  | types
  | extensions
  | paths
  deriving DecidableEq, Repr

/-- What has been kept so far, and what is still open. -/
structure Gathered where
  documentOnly : Bool := false
  extensions : List String := []
  types : Option String := none
  paths : List String := []
  pending : Option (Slot × List String) := none
  deriving DecidableEq, Repr

namespace Gathered

def keepTypes (gathered : Gathered) : List String → Except Refusal Gathered
  | [] => .error .invalidValue
  | path :: _ =>
    if gathered.types.isSome then .error .repeatedOption
    else if path.isEmpty then .error .invalidValue
    else .ok { gathered with types := some path }

/-- One value holds any number of extensions, with commas between them. -/
def keepExtensions (gathered : Gathered) : List String → Except Refusal Gathered
  | [] => .error .invalidValue
  | value :: _ =>
    let extensions := (value.toList.splitOn ',').map String.ofList
    .ok { gathered with extensions := gathered.extensions ++ extensions }

def keepPaths (gathered : Gathered) (paths : List String) : Except Refusal Gathered :=
  if paths.any String.isEmpty then .error .invalidValue
  else .ok { gathered with paths := gathered.paths ++ paths }

/-- Close what is open. -/
def settle (gathered : Gathered) : Except Refusal Gathered :=
  let closed := { gathered with pending := none }
  match gathered.pending with
  | none => .ok closed
  | some (.types, values) => closed.keepTypes values
  | some (.extensions, values) => closed.keepExtensions values
  | some (.paths, values) => closed.keepPaths values

/-- Begin an option that takes a value. A value behind an equals sign closes it at once. -/
def openSlot (gathered : Gathered) (slot : Slot) (value : Option String) :
    Except Refusal Gathered := do
  let gathered ← gathered.settle
  match value with
  | none => return { gathered with pending := some (slot, []) }
  | some value => settle { gathered with pending := some (slot, [value]) }

def setDocumentOnly (gathered : Gathered) : Except Refusal Gathered := do
  let gathered ← gathered.settle
  if gathered.documentOnly then .error .repeatedOption
  else return { gathered with documentOnly := true }

def beginPaths (gathered : Gathered) (path : String) : Except Refusal Gathered := do
  let gathered ← gathered.settle
  return { gathered with pending := some (.paths, [path]) }

/-- A word behind the separator is a path. -/
def addPath (gathered : Gathered) (path : String) : Except Refusal Gathered :=
  match gathered.pending with
  | some (.paths, paths) => .ok { gathered with pending := some (.paths, paths ++ [path]) }
  | _ => gathered.beginPaths path

/-- A plain word is the value of the option that waits for one, or else a path. -/
def addPlain (gathered : Gathered) (text : String) : Except Refusal Gathered :=
  match gathered.pending with
  | some (.types, []) => .ok { gathered with pending := some (.types, [text]) }
  | some (.extensions, []) => .ok { gathered with pending := some (.extensions, [text]) }
  | _ => gathered.addPath text

def addWords (gathered : Gathered) : List String → Except Refusal Gathered
  | [] => gathered.settle
  | argument :: rest =>
    match Word.ofText argument with
    | .separator => do
      let gathered ← rest.foldlM addPath gathered
      gathered.settle
    | .long "types" value => do
      let gathered ← gathered.openSlot .types value
      gathered.addWords rest
    | .long "query-spec-exts" value => do
      let gathered ← gathered.openSlot .extensions value
      gathered.addWords rest
    | .long "document-only" none => do
      let gathered ← gathered.setDocumentOnly
      gathered.addWords rest
    | .long "help" none | .short ('h' :: _) => do
      let _ ← gathered.settle
      .error .showHelp
    | .long "document-only" (some _) | .long "help" (some _) => .error .unexpectedValue
    | .long _ _ | .short _ => .error .unknownOption
    | .plain text => do
      let gathered ← gathered.addPlain text
      gathered.addWords rest

end Gathered

def defaultExtensions : List String := ["json"]

def ofGathered (gathered : Gathered) : Except Refusal Options :=
  match gathered.types, gathered.paths with
  | some types, path :: paths =>
    let extensions := if gathered.extensions.isEmpty then defaultExtensions else gathered.extensions
    .ok ⟨gathered.documentOnly, extensions, types, path :: paths⟩
  | _, _ => .error .missingArgument

def ofArguments (arguments : List String) : Except Refusal Options := do
  let gathered ← Gathered.addWords {} arguments
  ofGathered gathered

end Options

end PathQuery.Command
