import FilterQuery.Command.Run

/-!
# The program

Reads the files that the command line names and the environment, and does what
`FilterQuery.Command.execute` decides.
-/

namespace FilterQuery.Command

/-- The files that an invocation may read. -/
def Invocation.inputs : Invocation → List String
  | .lower request => [request.schema, request.filter] ++ request.options.toList
  | _ => []

/-- The error in words. -/
def CommandError.message : CommandError → String
  | .usage => helpText
  | .file => "Failed to read or write a file"
  | .malformedFilter => "Failed to deserialize the where input as JSON"
  | .schema error =>
    "Failed to load the schema snapshot: " ++ error.message?.getD "malformed document"
  | .options error =>
    "Failed to load the rewrite options: " ++ error.message?.getD "malformed document"
  | .lowering error => "Failed to rewrite the where input: " ++ error.message
  | .identifier error => "Failed to decode the global id: " ++ error.message

/-- The bytes of a file, if it can be read. -/
def readFile? (path : String) : IO (Option (List UInt8)) := do
  try return some (← IO.FS.readBinFile path).toList
  catch _ => return none

/-- Reports an error and gives its exit code. -/
def report (error : CommandError) : IO UInt32 := do
  IO.eprintln error.message
  return error.exitCode.toUInt32

/-- Does one thing. -/
def perform : Effect → IO UInt32
  | .print text => do
    IO.print text
    return 0
  | .write path text => do
    try
      IO.FS.writeFile path text
      return 0
    catch _ => report .file

/-- Runs a command line. -/
def start (arguments : List String) : IO UInt32 := do
  match Invocation.parse? arguments with
  | none => report .usage
  | some invocation =>
    let files ← invocation.inputs.mapM fun path => do return (path, ← readFile? path)
    let names := [Overrides.strictIdsVariable, Overrides.maxDepthVariable]
    let settings ← names.mapM fun name => do return (name, ← IO.getEnv name)
    let around : Surroundings :=
      ⟨fun path => (files.lookup path).join, fun name => (settings.lookup name).join⟩
    match execute around invocation with
    | .ok effect => perform effect
    | .error error => report error

end FilterQuery.Command

/-- The program. -/
def main (arguments : List String) : IO UInt32 := FilterQuery.Command.start arguments
