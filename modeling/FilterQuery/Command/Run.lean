import FilterQuery.Command.Arguments
import FilterQuery.Command.Directory
import FilterQuery.Json.Printer
import FilterQuery.Session

/-!
# Running commands

`Command.execute` decides what an invocation does, from the files it can read and the environment:
it prints a text or writes a file, or it fails and does nothing. `Command.run` is a whole run of
the program in a directory.

Lowering loads the schema, then the options from their file, the environment and the command line,
then the filter; the first part that cannot be loaded is the error.
-/

namespace FilterQuery.Command

/-- **Command errors.** Why a run failed. -/
inductive CommandError
  /-- The command line asks for nothing. -/
  | usage
  /-- A file cannot be read as text, or not be written. -/
  | file
  /-- The filter is no JSON text. -/
  | malformedFilter
  /-- There is no schema. -/
  | schema (error : SchemaError)
  /-- There are no options. -/
  | options (error : OptionsError)
  /-- The filter has no query. -/
  | lowering (error : LoweringError)
  /-- The identifier cannot be decoded. -/
  | identifier (error : IdentifierError)
deriving DecidableEq, Repr

/-- The exit code of a failed run. -/
def CommandError.exitCode : CommandError → Nat
  | .usage => 2
  | _ => 1

/-- **Surroundings.** What a run can see: the files that can be read, and the environment. -/
structure Surroundings where
  /-- The bytes of a file. -/
  read? : String → Option (List UInt8)
  /-- The value of an environment variable. -/
  lookup? : String → Option String

/-- **Effects.** The one thing that a successful run does. -/
inductive Effect
  /-- Print a text. -/
  | print (text : String)
  /-- Write a text to a file. -/
  | write (path text : String)
deriving DecidableEq, Repr

/-! ### Execution -/

/-- The text of a file. -/
def Surroundings.text (around : Surroundings) (path : String) : Except CommandError String :=
  match around.read? path with
  | none => .error .file
  | some bytes => (Utf8.decode bytes).mapError fun _ => .file

/-- The options from their file, if there is one. -/
def fileOptions (around : Surroundings) : Option String → Except CommandError Options
  | none => .ok {}
  | some path => do (Options.ofText (← around.text path)).mapError .options

/-- The options from their file, then the environment, then the command line. -/
def loadOptions (around : Surroundings) (request : LowerRequest) : Except CommandError Options := do
  let options ← fileOptions around request.options
  let overrides := Overrides.ofEnvironment around.lookup?
  let options ← (options.override overrides).mapError .options
  return if request.strictIds then options.strict else options

/-- The query that a request asks for. -/
def query (around : Surroundings) (request : LowerRequest) : Except CommandError Json := do
  let schema ← (Schema.ofText (← around.text request.schema)).mapError .schema
  let options ← loadOptions around request
  match Json.ofText? Document.textLimit (← around.text request.filter) with
  | none => .error .malformedFilter
  | some filter =>
    let cx := Context.of schema .relay options
    (Lowering.lower cx request.cls filter).result.mapError .lowering

/-- An identifier as an indented record, its type first. -/
def identifierText (identifier : GlobalId) : String :=
  let line (name value : String) := "  " ++ Json.stringText name ++ ": " ++ Json.stringText value
  "\x7b\n" ++ line "type" identifier.type ++ ",\n" ++ line "id" identifier.id ++ "\n\x7d"

/-- The version of the program. -/
def versionText : String := "parse-where 0.1.0"

/-- The overview of the command line. -/
def helpText : String :=
  "GraphQL where input to Parse query constraints\n\nUsage: parse-where <COMMAND>\n\nCommands: " ++
    String.intercalate ", " (commands.map Prod.fst ++ [helpCommand])

/-- **Execution.** What an invocation does. -/
def execute (around : Surroundings) : Invocation → Except CommandError Effect
  | .lower request => do
    let query ← query around request
    return match request.output with
      | none => .print (query.pretty ++ "\n")
      | some path => .write path query.pretty
  | .encodeId type id => .ok (.print (Codec.relay.encode ⟨type, id⟩ ++ "\n"))
  | .decodeId encoded => do
    let identifier ← (Codec.relay.decode encoded).mapError .identifier
    return .print (identifierText identifier ++ "\n")
  | .version => .ok (.print (versionText ++ "\n"))
  | .help => .ok (.print (helpText ++ "\n"))

/-! ### Runs -/

/-- **Outcomes.** What a run leaves behind. -/
structure Outcome where
  /-- The text that was printed. -/
  stdout : String
  /-- Why the run failed, if it did. -/
  error : Option CommandError
  /-- The directory after the run. -/
  directory : Directory

/-- The exit code of a run. -/
def Outcome.exitCode (outcome : Outcome) : Nat := (outcome.error.map CommandError.exitCode).getD 0

/-- The outcome of an effect in a directory. -/
def Effect.apply (dir : Directory) : Effect → Outcome
  | .print text => ⟨text, none, dir⟩
  | .write path text => match dir.write? path (Utf8.encode text) with
    | some dir => ⟨"", none, dir⟩
    | none => ⟨"", some .file, dir⟩

/-- **Runs.** A run of the program with a command line, in a directory and an environment. -/
def run (dir : Directory) (lookup? : String → Option String) (arguments : List String) :
    Outcome :=
  match Invocation.parse? arguments with
  | none => ⟨"", some .usage, dir⟩
  | some invocation => match execute ⟨dir.read?, lookup?⟩ invocation with
    | .ok effect => effect.apply dir
    | .error error => ⟨"", some error, dir⟩

end FilterQuery.Command
