import PathQuery.Command.Event
import PathQuery.Command.Failure
import PathQuery.Command.Invocation
import PathQuery.Command.Outcome
import PathQuery.Query.Compile
import PathQuery.Query.File
/-!
# Carrying out a command

A compile run reads the model of types, looks for query files at and below the given paths, and
compiles each of them by itself. Without a model nothing else happens; apart from that, no failure
keeps another file from being compiled, and every file leaves either a block of output or one
failure.
-/

namespace PathQuery.Command

open FileTree (Found Visit)
open Query (Compiler)

/-- What each path leads to. -/
abbrev Storage := String → Except FileTree.Fault FileTree

/-- What a run leaves behind, and what was noted on the way. -/
structure Report where
  outcome : Outcome
  notes : List Event

namespace Options

/-- The extensions to look for. Dots in front of one do not count. -/
def accepted (options : Options) : List String :=
  (options.extensions.map fun e => String.ofList (e.toList.dropWhile (· == '.'))).eraseDups

def isWanted (options : Options) (found : Found) : Bool :=
  match found.extension? with
  | none => false
  | some extension => options.accepted.contains extension

/-- Everything at or below a path. A path that leads nowhere is all there is to meet. -/
def visits (storage : Storage) (path : String) : List Visit :=
  match storage path with
  | .error fault => [.unreachable path fault]
  | .ok tree => tree.walk path

/-- The files at or below a path that are wanted. -/
def wantedUnder (options : Options) (storage : Storage) (path : String) : List Found :=
  ((visits storage path).filterMap Visit.found?).filter options.isWanted

def wanted (options : Options) (storage : Storage) : List Found :=
  options.paths.flatMap (options.wantedUnder storage)

/-- The only path there is, if it leads to a file. -/
def soleFile? (options : Options) (storage : Storage) : Option Found :=
  match options.paths with
  | [path] =>
    match storage path with
    | .ok (.file content) => some ⟨path, content⟩
    | _ => none
  | _ => none

/-- A file that is compiled although it is not wanted, as nothing else was found. -/
def unwanted? (options : Options) (storage : Storage) : Option Found :=
  if (options.wanted storage).isEmpty then options.soleFile? storage else none

/-- The files to be compiled, in order. -/
def files (options : Options) (storage : Storage) : List Found :=
  options.wanted storage ++ (options.unwanted? storage).toList

def visitFailure? : Visit → Option Failure
  | .unreachable path fault => some (.unreachable path fault)
  | .directory _ | .file _ => none

/-- What cannot be entered at or below the given paths. -/
def unreachable (options : Options) (storage : Storage) : List Failure :=
  options.paths.flatMap fun path => (visits storage path).filterMap visitFailure?

def registry (options : Options) (storage : Storage) : Except Failure Schema.Registry := do
  let path := options.types
  let text ← ((storage path).bind FileTree.text).mapError (.unreadable .types path)
  let model ← (Schema.Model.decoder.run text).mapError (.malformed .types path)
  model.registry.mapError (.invalidTypes path)

/-- What is printed of a compiled query. -/
def output (options : Options) (operation : Query.Operation) : String :=
  if options.documentOnly then operation.document else operation.payload

def compileFile (options : Options) (compiler : Compiler) (found : Found) :
    Logged Event Failure String :=
  match found.text with
  | .error fault => .fail (.unreadable .spec found.path fault)
  | .ok text =>
    match Query.Spec.decoder.run text with
    | .error fault => .fail (.malformed .spec found.path fault)
    | .ok spec =>
      let compilation := compiler.compile spec
      ⟨compilation.notes.map .query,
        (compilation.result.map options.output).mapError (.uncompiled found.path)⟩

/-- The text for one file, below its path unless it is the only one. -/
def block (sole : Bool) (found : Found) (output : String) : String :=
  if sole then output else s!"# {found.path}\n{output}"

/-- What is noted of a visit on the walk that started at a path. -/
def visitEvent (start : String) : Visit → Event
  | .directory path => .skipped path
  | .file found => .found found.path
  | .unreachable _ _ => .unreachable start

def visitEvents (storage : Storage) (path : String) : List Event :=
  (visits storage path).map (visitEvent path)

/-- What is noted before the first file is compiled. -/
def searchEvents (options : Options) (storage : Storage) : List Event :=
  .scanning options.paths.length :: options.paths.flatMap (visitEvents storage) ++
    (options.unwanted? storage).toList.map (fun found => .proceeding found.path options.accepted) ++
    [.gathered (options.files storage).length]

def loadedEvent (options : Options) (registry : Schema.Registry) : Event :=
  .loaded registry.objects.toList.length registry.enums.length options.types

def run (options : Options) (storage : Storage) : Report :=
  match options.registry storage with
  | .error failure => ⟨.failure failure.message, []⟩
  | .ok registry =>
    let files := options.files storage
    let compilations := files.map fun found => (found, options.compileFile ⟨registry, {}⟩ found)
    let outputs := compilations.filterMap fun (found, compilation) =>
      match compilation.result with
      | .ok output => some (block (files.length == 1) found output)
      | .error _ => none
    let failures := options.unreachable storage ++ compilations.filterMap fun (_, compilation) =>
      match compilation.result with
      | .ok _ => none
      | .error failure => some failure
    let verdict : Event :=
      if failures.isEmpty then .succeeded outputs.length
      else .failed failures.length files.length
    ⟨Outcome.ofParts outputs (failures.map Failure.message),
      options.loadedEvent registry :: options.searchEvents storage ++
        compilations.flatMap (fun (_, compilation) => compilation.notes) ++ [verdict]⟩

end Options

/-- Without a command the usage is the output. -/
def Invocation.run (invocation : Invocation) (storage : Storage) : Report :=
  match invocation.compile with
  | none => ⟨.success usage, []⟩
  | some options => options.run storage

end PathQuery.Command
