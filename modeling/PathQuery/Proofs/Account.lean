import Mathlib.Logic.ExistsUnique
import PathQuery.Proofs.Contents
import PathQuery.Proofs.Finding
/-!
# The account of a run

Three things can go wrong while a run goes on: a path cannot be followed, a file cannot be read as a
query, and a query cannot be compiled. All of them end in one list of failures, while blocks of
output go into another. What is shown here is that nothing gets lost between the lists: every file
that is found has one verdict, which no other file has a part in, and it leaves either its block or
its failure, each list in the order of the files.
-/

namespace PathQuery.Command

open FileTree (Fault Found)
open Json (Decoder Token Tree)
open Query (Compiler Operation Spec)
open Schema (Model Registry)

/-! ### Verdicts -/

/-- What the file of types comes to: a registry, or what is wrong with the file. -/
inductive Options.Loads (options : Options) (storage : Storage) : Except Failure Registry → Prop
  | unreadable {fault : Fault} (reads : Storage.Reads storage options.types (.error fault)) :
      Loads options storage (.error (.unreadable .types options.types fault))
  | malformed {text : String} {fault : Json.Fault}
      (reads : Storage.Reads storage options.types (.ok text))
      (decode : Model.decoder.run text = .error fault) :
      Loads options storage (.error (.malformed .types options.types fault))
  | invalid {text : String} {model : Model} {error : Schema.Error}
      (reads : Storage.Reads storage options.types (.ok text))
      (decode : Model.decoder.run text = .ok model) (build : model.registry = .error error) :
      Loads options storage (.error (.invalidTypes options.types error))
  | loaded {text : String} {model : Model} {registry : Registry}
      (reads : Storage.Reads storage options.types (.ok text))
      (decode : Model.decoder.run text = .ok model) (build : model.registry = .ok registry) :
      Loads options storage (.ok registry)

/-- What a file comes to by itself: what is printed of its query, or what is wrong with the file. -/
inductive Verdict (documentOnly : Bool) (registry : Registry) (found : Found) :
    Except Failure String → Prop
  | unreadable {fault : Fault} (reads : found.Reads (.error fault)) :
      Verdict documentOnly registry found (.error (.unreadable .spec found.path fault))
  | malformed {text : String} {fault : Json.Fault} (reads : found.Reads (.ok text))
      (decode : Spec.decoder.run text = .error fault) :
      Verdict documentOnly registry found (.error (.malformed .spec found.path fault))
  | uncompiled {text : String} {spec : Spec} {error : Query.Error} (reads : found.Reads (.ok text))
      (decode : Spec.decoder.run text = .ok spec)
      (compile : (Compiler.compile ⟨registry, {}⟩ spec).result = .error error) :
      Verdict documentOnly registry found (.error (.uncompiled found.path error))
  | compiled {text : String} {spec : Spec} {operation : Operation} (reads : found.Reads (.ok text))
      (decode : Spec.decoder.run text = .ok spec)
      (compile : (Compiler.compile ⟨registry, {}⟩ spec).result = .ok operation) :
      Verdict documentOnly registry found
        (.ok (if documentOnly then operation.document else operation.payload))

/-- A file with its verdict. -/
abbrev Reported := Found × Except Failure String

/-- The line that names a file. -/
def heading (found : Found) : String := "# " ++ found.path ++ "\n"

namespace Reported

/-- What is printed of a file that was compiled, below its name unless there is no other file. -/
def block? (files : Nat) (report : Reported) : Option String :=
  match report.2 with
  | .ok output => some (if files = 1 then output else heading report.1 ++ output)
  | .error _ => none

def failure? (report : Reported) : Option Failure :=
  match report.2 with
  | .ok _ => none
  | .error failure => some failure

end Reported

/-- The block of each file that was compiled. -/
def blocks (reports : List Reported) : List String :=
  reports.filterMap (Reported.block? reports.length)

/-- The failure of each file that was not. -/
def failures (reports : List Reported) : List Failure := reports.filterMap Reported.failure?

/-- Parts with a line break between them, if there are any. -/
def joined (parts : List String) : Option String :=
  if parts = [] then none else some ("\n".intercalate parts)

variable {options : Options} {storage : Storage} {registry : Registry}

theorem registry_of_reads {text : String}
    (reads : Storage.Reads storage options.types (.ok text)) :
    options.registry storage =
      ((Model.decoder.run text).mapError (.malformed .types options.types)).bind fun model =>
        model.registry.mapError (.invalidTypes options.types) := by
  show ((storage options.types).bind FileTree.text).mapError _ >>= _ = _
  rw [Storage.reads_iff.mp reads]
  rfl

theorem registry_of_loads {loaded : Except Failure Registry} (h : options.Loads storage loaded) :
    options.registry storage = loaded := by
  cases h with
  | unreadable reads =>
    show ((storage options.types).bind FileTree.text).mapError _ >>= _ = _
    rw [Storage.reads_iff.mp reads]
    rfl
  | malformed reads decode =>
    rw [registry_of_reads reads, decode]
    rfl
  | @invalid text model error reads decode build =>
    rw [registry_of_reads reads, decode]
    show model.registry.mapError _ = _
    rw [build]
    rfl
  | @loaded text model registry reads decode build =>
    rw [registry_of_reads reads, decode]
    show model.registry.mapError _ = _
    rw [build]
    rfl

theorem exists_loads (options : Options) (storage : Storage) :
    ∃ loaded, options.Loads storage loaded := by
  cases read : (storage options.types).bind FileTree.text with
  | error fault => exact ⟨_, .unreadable (Storage.reads_iff.mpr read)⟩
  | ok text =>
    have reads := Storage.reads_iff.mpr read
    cases decode : Model.decoder.run text with
    | error fault => exact ⟨_, .malformed reads decode⟩
    | ok model =>
      cases build : model.registry with
      | error error => exact ⟨_, .invalid reads decode build⟩
      | ok registry => exact ⟨_, .loaded reads decode build⟩

theorem loads_unique (options : Options) (storage : Storage) :
    ∃! loaded, options.Loads storage loaded := by
  obtain ⟨loaded, hloads⟩ := exists_loads options storage
  refine ⟨loaded, hloads, fun other hother => ?_⟩
  exact (registry_of_loads hother).symm.trans (registry_of_loads hloads)

theorem result_of_verdict {found : Found} {verdict : Except Failure String}
    (h : Verdict options.documentOnly registry found verdict) :
    (options.compileFile ⟨registry, {}⟩ found).result = verdict := by
  unfold Options.compileFile
  cases h with
  | unreadable reads =>
    simp only [Found.reads_iff.mp reads]
    rfl
  | malformed reads decode =>
    simp only [Found.reads_iff.mp reads, decode]
    rfl
  | uncompiled reads decode compile =>
    simp only [Found.reads_iff.mp reads, decode, compile]
    rfl
  | compiled reads decode compile =>
    simp only [Found.reads_iff.mp reads, decode, compile]
    rfl

theorem exists_verdict (documentOnly : Bool) (registry : Registry) (found : Found) :
    ∃ verdict, Verdict documentOnly registry found verdict := by
  cases read : found.text with
  | error fault => exact ⟨_, .unreadable (Found.reads_iff.mpr read)⟩
  | ok text =>
    have reads := Found.reads_iff.mpr read
    cases decode : Spec.decoder.run text with
    | error fault => exact ⟨_, .malformed reads decode⟩
    | ok spec =>
      cases compile : (Compiler.compile ⟨registry, {}⟩ spec).result with
      | error error => exact ⟨_, .uncompiled reads decode compile⟩
      | ok operation => exact ⟨_, .compiled reads decode compile⟩

theorem verdict_compileFile (options : Options) (registry : Registry) (found : Found) :
    Verdict options.documentOnly registry found
      (options.compileFile ⟨registry, {}⟩ found).result := by
  obtain ⟨verdict, hverdict⟩ := exists_verdict options.documentOnly registry found
  rw [result_of_verdict hverdict]
  exact hverdict

theorem verdict_unique (options : Options) (registry : Registry) (found : Found) :
    ∃! verdict, Verdict options.documentOnly registry found verdict :=
  ⟨_, verdict_compileFile options registry found, fun _ h => (result_of_verdict h).symm⟩

/-- No output looks like the line that names a file. -/
theorem Verdict.not_heading {documentOnly : Bool} {found : Found} {output : String}
    (h : Verdict documentOnly registry found (.ok output)) (other : Found) :
    ¬ (heading other).toList <+: output.toList := by
  have hheading : (heading other).toList = '#' :: ' ' :: (other.path.toList ++ ['\n']) := by
    simp [heading]
  cases h with
  | compiled reads decode compile =>
    intro hprefix
    rw [hheading] at hprefix
    split at hprefix
    · simp [Operation.document, List.cons_prefix_iff] at hprefix
    · simp [Operation.payload, Operation.envelope, Json.compact, Json.chars] at hprefix

/-! ### The two lists -/

/-- The files of a run with what they came to. -/
def Options.reports (options : Options) (storage : Storage) (registry : Registry) :
    List Reported :=
  (options.files storage).map fun found =>
    (found, (options.compileFile ⟨registry, {}⟩ found).result)

theorem outcome_run_of_error {failure : Failure} (h : options.registry storage = .error failure) :
    (options.run storage).outcome = .failure failure.message := by
  unfold Options.run
  rw [h]

theorem outcome_run_of_ok (h : options.registry storage = .ok registry) :
    (options.run storage).outcome =
      .ofParts (blocks (options.reports storage registry))
        ((options.unreachable storage ++ failures (options.reports storage registry)).map
          Failure.message) := by
  unfold Options.run
  rw [h]
  simp only [blocks, failures, Options.reports, List.filterMap_map, List.length_map]
  congr 2
  funext found
  simp only [Function.comp_apply, Reported.block?]
  cases (options.compileFile ⟨registry, {}⟩ found).result with
  | error failure => rfl
  | ok output =>
    simp only [Options.block, beq_iff_eq]
    rfl

theorem Outcome.exitCode_ofParts_eq_zero_iff {outputs failures : List String} :
    (Outcome.ofParts outputs failures).exitCode = 0 ↔
      (Outcome.ofParts outputs failures).stderr = none := by
  cases failures <;> simp [Outcome.exitCode, Outcome.ofParts, Outcome.block]

theorem Outcome.block_eq_joined (parts : List String) : Outcome.block parts = joined parts := by
  cases parts <;> simp [Outcome.block, joined]

/-- A block begins with the name of its file unless there is no other file. -/
theorem Verdict.heading_prefix_iff {documentOnly : Bool} {report : Reported}
    (h : Verdict documentOnly registry report.1 report.2) {files : Nat} {block : String}
    (hblock : report.block? files = some block) :
    (heading report.1).toList <+: block.toList ↔ files ≠ 1 := by
  obtain ⟨found, verdict⟩ := report
  cases verdict with
  | error failure => contradiction
  | ok output =>
    obtain rfl := Option.some.inj hblock
    by_cases hfiles : files = 1
    · simpa [hfiles] using h.not_heading found
    · simp [hfiles, String.toList_append]

/-- What accounts for an outcome: the files with their verdicts, and the obstacles on the way. -/
structure Accounts (options : Options) (storage : Storage) (registry : Registry)
    (outcome : Outcome) (reports : List Reported) (obstacles : List Failure) : Prop where
  finds : options.Finds storage (reports.map Prod.fst)
  hinders : options.Hinders storage obstacles
  verdicts : ∀ report ∈ reports, Verdict options.documentOnly registry report.1 report.2
  stdout : outcome.stdout = joined (blocks reports)
  stderr : outcome.stderr = joined ((obstacles ++ failures reports).map Failure.message)
  exitCode : outcome.exitCode = 0 ↔ outcome.stderr = none
  headed : ∀ report ∈ reports, ∀ block, report.block? reports.length = some block →
    ((heading report.1).toList <+: block.toList ↔ reports.length ≠ 1)

theorem verdict_of_mem_reports {report : Reported}
    (h : report ∈ options.reports storage registry) :
    Verdict options.documentOnly registry report.1 report.2 := by
  obtain ⟨found, -, rfl⟩ := List.mem_map.mp h
  exact verdict_compileFile options registry found

theorem accounts_of_registry (hstorage : storage.Distinct)
    (h : options.registry storage = .ok registry) :
    Accounts options storage registry (options.run storage).outcome
      (options.reports storage registry) (options.unreachable storage) where
  finds := by
    rw [Options.reports, List.map_map]
    exact (List.map_id _).symm ▸ Options.finds_files hstorage
  hinders := Options.hinders_unreachable hstorage
  verdicts := fun _ hreport => verdict_of_mem_reports hreport
  stdout := by
    rw [outcome_run_of_ok h, ← Outcome.block_eq_joined]
    rfl
  stderr := by
    rw [outcome_run_of_ok h, ← Outcome.block_eq_joined]
    rfl
  exitCode := by
    rw [outcome_run_of_ok h]
    exact Outcome.exitCode_ofParts_eq_zero_iff
  headed := fun _ hreport _ hblock => (verdict_of_mem_reports hreport).heading_prefix_iff hblock

theorem map_eq_of_verdicts {reports : List Reported}
    (h : ∀ report ∈ reports, Verdict options.documentOnly registry report.1 report.2) :
    reports = (reports.map Prod.fst).map fun found =>
      (found, (options.compileFile ⟨registry, {}⟩ found).result) := by
  rw [List.map_map]
  refine ((List.map_congr_left ?_).trans (List.map_id reports)).symm
  intro report hreport
  exact Prod.ext rfl (result_of_verdict (h report hreport))

/-- There is one account at most: files and obstacles are given by what is there, and the verdicts
by the files. -/
theorem Accounts.unique {outcome : Outcome} {reports others : List Reported}
    {obstacles hindrances : List Failure}
    (h : Accounts options storage registry outcome reports obstacles)
    (hother : Accounts options storage registry outcome others hindrances) :
    reports = others ∧ obstacles = hindrances := by
  refine ⟨?_, h.hinders.unique hother.hinders⟩
  rw [map_eq_of_verdicts h.verdicts, map_eq_of_verdicts hother.verdicts,
    h.finds.unique hother.finds]

/-- A run without a model says what is wrong with the file of types, and nothing else. A run with a
model accounts for every file and every obstacle. -/
theorem run_accounts_for_files (options : Options) {storage : Storage}
    (hstorage : storage.Distinct) :
    (∃! loaded, options.Loads storage loaded) ∧
      (∀ failure, options.Loads storage (.error failure) →
        (options.run storage).outcome.exitCode = 1 ∧ (options.run storage).outcome.stdout = none ∧
          (options.run storage).outcome.stderr = some failure.message) ∧
      ∀ registry, options.Loads storage (.ok registry) →
        (∀ found, ∃! verdict, Verdict options.documentOnly registry found verdict) ∧
          ∃! account : List Reported × List Failure,
            Accounts options storage registry (options.run storage).outcome account.1
              account.2 := by
  refine ⟨loads_unique options storage, fun failure hloads => ?_, fun registry hloads => ?_⟩
  · rw [outcome_run_of_error (registry_of_loads hloads)]
    exact ⟨rfl, rfl, rfl⟩
  · have haccounts := accounts_of_registry hstorage (registry_of_loads hloads)
    refine ⟨verdict_unique options registry, (_, _), haccounts, fun other hother => ?_⟩
    obtain ⟨hreports, hobstacles⟩ := hother.unique haccounts
    exact Prod.ext hreports hobstacles

/-! ### A depot -/

/-- A model of routes that have an identifier. -/
def routeTypes : String :=
  "\x7b\"objects\":[\x7b\"name\":\"Route\"," ++
    "\"fields\":[\x7b\"name\":\"Id\",\"type\":\x7b\"Scalar\":\"Id\"\x7d\x7d]\x7d]\x7d"

def routeQuery : String := "\x7b\"query_name\":\"Route\",\"root_type\":\"Route\"\x7d"

def stopQuery : String := "\x7b\"query_name\":\"Stop\",\"root_type\":\"Stop\"\x7d"

/-- Two queries for routes, one for stops, a file that is no text, and some notes. -/
def queries : FileTree :=
  .directory
    [ ("all.json", .file (some routeQuery)), ("binary.json", .file none),
      ("notes.txt", .file (some "")), ("routes.json", .file (some routeQuery)),
      ("stops.json", .file (some stopQuery)) ]

/-- The file of types beside a directory with queries. -/
def depot : FileTree :=
  .directory [("types.json", .file (some routeTypes)), ("queries", queries)]

/-- A run on the queries of the depot, and on some that are no longer there. -/
def ofDepot (types : String) : Options := ⟨true, ["json"], types, ["queries", "old"]⟩

/-- What the queries for routes are compiled to. -/
def routeOperation : Operation :=
  ⟨∅, .branch ⟨"route", some "result", []⟩ [.leaf ⟨"id", none, []⟩]⟩

/-- The files of the depot that are compiled, with what they come to. -/
def depotReports : List Reported :=
  [ (⟨"queries/all.json", some routeQuery⟩, .ok routeOperation.document),
    (⟨"queries/binary.json", none⟩, .error (.unreadable .spec "queries/binary.json" .notText)),
    (⟨"queries/routes.json", some routeQuery⟩, .ok routeOperation.document),
    (⟨"queries/stops.json", some stopQuery⟩,
      .error (.uncompiled "queries/stops.json" (.undefinedType "Stop"))) ]

def routeRegistry : Registry :=
  ⟨[], OrderedMap.empty.insert "Route" ⟨"Route", [⟨"Id", .scalar .id⟩]⟩⟩

theorem visits_queries :
    Options.visits depot.locate "queries" =
      [ .directory "queries", .file ⟨"queries/all.json", some routeQuery⟩,
        .file ⟨"queries/binary.json", none⟩, .file ⟨"queries/notes.txt", some ""⟩,
        .file ⟨"queries/routes.json", some routeQuery⟩,
        .file ⟨"queries/stops.json", some stopQuery⟩ ] := by
  show queries.walk "queries" = _
  rw [queries, FileTree.walk_directory (by decide), FileTree.inOrder, List.mergeSort_of_pairwise]
  · rfl
  · decide

theorem visits_old : Options.visits depot.locate "old" = [.unreachable "old" .missing] := rfl

theorem files_ofDepot (types : String) :
    (ofDepot types).files depot.locate = depotReports.map Prod.fst := by
  have hwanted : (ofDepot types).wanted depot.locate = depotReports.map Prod.fst := by
    simp only [Options.wanted, Options.wantedUnder, ofDepot, List.flatMap_cons, visits_queries,
      visits_old]
    rfl
  rw [Options.files, Options.unwanted?, hwanted]
  rfl

theorem unreachable_ofDepot (types : String) :
    (ofDepot types).unreachable depot.locate = [.unreachable "old" .missing] := by
  simp only [Options.unreachable, ofDepot, List.flatMap_cons, visits_queries, visits_old]
  rfl

/-- A text is decoded from its tokens. -/
theorem run_of_tokens {α : Type} (decoder : Decoder α) {text : String} {tokens : List Token}
    {tree : Tree} (hscan : Token.scan text.toList = tokens)
    (hread : Tree.readValue (2 * tokens.length + 1) tokens = (tree, [])) :
    decoder.run text = decoder Decoder.nestingLimit tree := by
  rw [Decoder.run, Tree.read, hscan, hread]
  exact bind_pure _

theorem run_routeQuery : Spec.decoder.run routeQuery = .ok ⟨"Route", "Route", ∅, [], none⟩ := by
  have hscan : Token.scan routeQuery.toList =
      [ .openObject, .string (some "query_name"), .colon, .string (some "Route"), .comma,
        .string (some "root_type"), .colon, .string (some "Route"), .closeObject ] := by
    decide +kernel
  rw [run_of_tokens _ hscan rfl]
  rfl

theorem run_stopQuery : Spec.decoder.run stopQuery = .ok ⟨"Stop", "Stop", ∅, [], none⟩ := by
  have hscan : Token.scan stopQuery.toList =
      [ .openObject, .string (some "query_name"), .colon, .string (some "Stop"), .comma,
        .string (some "root_type"), .colon, .string (some "Stop"), .closeObject ] := by
    decide +kernel
  rw [run_of_tokens _ hscan rfl]
  rfl

theorem run_routeTypes :
    Model.decoder.run routeTypes = .ok ⟨[], [⟨"Route", [⟨"Id", .scalar .id⟩]⟩]⟩ := by
  have hscan : Token.scan routeTypes.toList =
      [ .openObject, .string (some "objects"), .colon, .openArray,
        .openObject, .string (some "name"), .colon, .string (some "Route"), .comma,
        .string (some "fields"), .colon, .openArray,
        .openObject, .string (some "name"), .colon, .string (some "Id"), .comma,
        .string (some "type"), .colon,
        .openObject, .string (some "Scalar"), .colon, .string (some "Id"), .closeObject,
        .closeObject, .closeArray, .closeObject, .closeArray, .closeObject ] := by
    decide +kernel
  rw [run_of_tokens _ hscan rfl]
  rfl

theorem verdict_depotReports :
    ∀ report ∈ depotReports, Verdict true routeRegistry report.1 report.2 := by
  have hoperation : (Compiler.compile ⟨routeRegistry, {}⟩ ⟨"Route", "Route", ∅, [], none⟩).result =
      .ok routeOperation := rfl
  simp only [depotReports, List.forall_mem_cons]
  refine ⟨?_, ?_, ?_, ?_, by simp⟩
  · exact .compiled (Found.reads_iff.mpr rfl) run_routeQuery hoperation
  · exact .unreadable (Found.reads_iff.mpr rfl)
  · exact .compiled (Found.reads_iff.mpr rfl) run_routeQuery hoperation
  · exact .uncompiled (Found.reads_iff.mpr rfl) run_stopQuery rfl

theorem loads_ofDepot : (ofDepot "types.json").Loads depot.locate (.ok routeRegistry) :=
  .loaded (.somewhere rfl (.text routeTypes)) run_routeTypes rfl

/-- Two queries are compiled, and a path, a file and a query are not. Their files are in order in
the output and in the diagnostics, and there is no other account of them. Without the file of types
there is nothing but its failure. -/
theorem run_accounts_for_files_of_depot :
    Storage.Distinct depot.locate ∧
      (ofDepot "types.json").Loads depot.locate (.ok routeRegistry) ∧
      (∀ account : List Reported × List Failure,
        Accounts (ofDepot "types.json") depot.locate routeRegistry
          ((ofDepot "types.json").run depot.locate).outcome account.1 account.2 ↔
        account = (depotReports, [.unreachable "old" .missing])) ∧
      ((ofDepot "types.json").run depot.locate).outcome.stdout =
        some ("# queries/all.json\nquery \x7b\n  result: route \x7b\n    id\n  \x7d\n\x7d\n" ++
          "# queries/routes.json\nquery \x7b\n  result: route \x7b\n    id\n  \x7d\n\x7d") ∧
      ((ofDepot "types.json").run depot.locate).outcome.stderr =
        some ("\n".intercalate
          [ (Failure.unreachable "old" .missing).message,
            (Failure.unreadable .spec "queries/binary.json" .notText).message,
            (Failure.uncompiled "queries/stops.json" (.undefinedType "Stop")).message ]) ∧
      ((ofDepot "types.json").run depot.locate).outcome.exitCode ≠ 0 ∧
      ((ofDepot "model.json").run depot.locate).outcome.stdout = none ∧
      ((ofDepot "model.json").run depot.locate).outcome.stderr =
        some (Failure.unreadable .types "model.json" .missing).message := by
  have hdepot : depot.Distinct := by
    refine .directory (by decide) ?_
    simp only [List.forall_mem_cons]
    refine ⟨.file _, .directory (by decide) ?_, by simp⟩
    simp only [List.forall_mem_cons]
    exact ⟨.file _, .file _, .file _, .file _, .file _, by simp⟩
  have hstorage : Storage.Distinct depot.locate := fun _ _ => hdepot.locate
  obtain ⟨-, -, hloaded⟩ := run_accounts_for_files (ofDepot "types.json") hstorage
  obtain ⟨-, account, haccount, hunique⟩ := hloaded routeRegistry loads_ofDepot
  -- The files are those of the walk, and each verdict is the only one of its file.
  have hreports : account.1 = depotReports := by
    have hfound : account.1.map Prod.fst = depotReports.map Prod.fst := by
      rw [haccount.finds.unique (Options.finds_files hstorage), files_ofDepot]
    rw [map_eq_of_verdicts haccount.verdicts, hfound]
    exact (@map_eq_of_verdicts (ofDepot "types.json") _ _ verdict_depotReports).symm
  have hobstacles : account.2 = [.unreachable "old" .missing] := by
    rw [haccount.hinders.unique (Options.hinders_unreachable hstorage), unreachable_ofDepot]
  obtain rfl : account = (depotReports, [.unreachable "old" .missing]) :=
    Prod.ext hreports hobstacles
  obtain ⟨-, hfailed, -⟩ := run_accounts_for_files (ofDepot "model.json") hstorage
  obtain ⟨-, hstdout, hstderr⟩ := hfailed _ (.unreadable (.nowhere rfl))
  refine ⟨hstorage, loads_ofDepot, fun account => ⟨hunique account, fun h => h ▸ haccount⟩,
    haccount.stdout.trans ?_, haccount.stderr, ?_, hstdout, hstderr⟩
  · decide +kernel
  · rw [Ne, haccount.exitCode, haccount.stderr]
    exact Option.some_ne_none _

end PathQuery.Command
