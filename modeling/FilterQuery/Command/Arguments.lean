/-!
# Command line

The command line names one of three commands, which lower a filter, encode an identifier or decode
one, and gives its arguments. `Invocation.parse?` reads it.

A command has a `Form`: the options that it takes and the number of other arguments. An option
takes its value from the same argument, after an equals sign, or from the next one, which must not
look like an option. No option may be given twice. After `--` there are no options.
-/

namespace FilterQuery.Command

/-- **Lowering requests.** The arguments of the command that lowers a filter. -/
structure LowerRequest where
  /-- The file of the filter. -/
  filter : String
  /-- The file of the schema. -/
  schema : String
  /-- The class that the filter is for. -/
  cls : String
  /-- The file of the options. -/
  options : Option String
  /-- Refuse identifiers that cannot be decoded, whatever the options say. -/
  strictIds : Bool
  /-- The file for the query. -/
  output : Option String
deriving DecidableEq, Repr

/-- **Invocations.** What a command line asks for. -/
inductive Invocation
  /-- The query of a filter. -/
  | lower (request : LowerRequest)
  /-- The encoded form of an identifier. -/
  | encodeId (type id : String)
  /-- The identifier of an encoded form. -/
  | decodeId (encoded : String)
  /-- The version of the program. -/
  | version
  /-- An overview of the command line. -/
  | help
deriving DecidableEq, Repr

/-! ### Arguments of a command -/

/-- **Forms.** The options that a command takes, with a value or without, and how many other
arguments. -/
structure Form where
  /-- The options with a value. -/
  valued : List String
  /-- The options without a value. -/
  flags : List String
  /-- The number of other arguments. -/
  positionals : Nat

/-- **Arguments.** The arguments of a command by their kinds. -/
structure Arguments where
  /-- The values of options. -/
  values : List (String × String) := []
  /-- The flags. -/
  flags : List String := []
  /-- The other arguments in order. -/
  positionals : List String := []

/-- The outcome of reading arguments: they may ask for help instead. -/
inductive Reading
  /-- The arguments. -/
  | arguments (arguments : Arguments)
  /-- A request for help. -/
  | help

/-- Is the argument a request for help? -/
def isHelp (argument : String) : Bool := argument == "--help" || argument.startsWith "-h"

/-- Does the argument look like an option? A lone dash does not. -/
def looksLikeOption (argument : String) : Bool := argument.startsWith "-" && argument != "-"

namespace Arguments

/-- Adds the value of an option, if the form has the option and it has no value yet. -/
def addValue? (form : Form) (arguments : Arguments) (name value : String) : Option Arguments :=
  if name ∈ form.valued ∧ (arguments.values.lookup name).isNone then
    some { arguments with values := (name, value) :: arguments.values }
  else none

/-- Adds a flag, if the form has it and it is not there yet. -/
def addFlag? (form : Form) (arguments : Arguments) (name : String) : Option Arguments :=
  if name ∈ form.flags ∧ name ∉ arguments.flags then
    some { arguments with flags := name :: arguments.flags }
  else none

/-- Adds an argument that is no option, if the form has room for it. -/
def addPositional? (form : Form) (arguments : Arguments) (value : String) : Option Arguments :=
  if arguments.positionals.length < form.positionals then
    some { arguments with positionals := arguments.positionals ++ [value] }
  else none

/-- The value of an option. -/
def value? (arguments : Arguments) (name : String) : Option String := arguments.values.lookup name

end Arguments

/-- The name of an option and the value after an equals sign. -/
def splitOption (argument : String) : String × Option String :=
  match argument.toList.dropWhile (· ≠ '=') with
  | [] => (argument, none)
  | _ :: value => (.ofList (argument.toList.takeWhile (· ≠ '=')), some (.ofList value))

/-- **Reading.** The arguments of a command of a form. -/
def read? (form : Form) (arguments : Arguments) : List String → Option Reading
  | [] => some (.arguments arguments)
  | argument :: rest =>
    if argument = "--" then do
      return .arguments (← rest.foldlM (Arguments.addPositional? form) arguments)
    else if isHelp argument then some .help
    else if looksLikeOption argument then
      match splitOption argument, rest with
      | (name, some value), rest => do read? form (← arguments.addValue? form name value) rest
      | (name, none), rest =>
        if name ∈ form.flags then do read? form (← arguments.addFlag? form name) rest
        else match rest with
          | value :: rest =>
            if looksLikeOption value then none
            else do read? form (← arguments.addValue? form name value) rest
          | [] => none
    else do read? form (← arguments.addPositional? form argument) rest

/-! ### Commands -/

/-- The form of the command that lowers a filter. -/
def lowerForm : Form :=
  ⟨["--where", "--schema", "--class", "--options", "--output"], ["--strict-ids"], 0⟩

/-- The form of the command that encodes an identifier. -/
def encodeForm : Form := ⟨["--type", "--id"], [], 0⟩

/-- The form of the command that decodes an identifier. -/
def decodeForm : Form := ⟨[], [], 1⟩

/-- The request that the arguments make. -/
def LowerRequest.ofArguments? (arguments : Arguments) : Option LowerRequest := do
  return {
    filter := ← arguments.value? "--where"
    schema := ← arguments.value? "--schema"
    cls := ← arguments.value? "--class"
    options := arguments.value? "--options"
    strictIds := arguments.flags.contains "--strict-ids"
    output := arguments.value? "--output" }

/-- The invocation of a command whose arguments have a form. -/
def invocation? (form : Form) (ask : Arguments → Option Invocation) (arguments : List String) :
    Option Invocation := do
  match ← read? form {} arguments with
  | .help => some .help
  | .arguments arguments => ask arguments

/-- The commands by their names: the forms of their arguments and what they ask for. -/
def commands : List (String × Form × (Arguments → Option Invocation)) :=
  [("rewrite", lowerForm, fun a => (LowerRequest.ofArguments? a).map .lower),
    ("encode-id", encodeForm, fun a => do
      return .encodeId (← a.value? "--type") (← a.value? "--id")),
    ("decode-id", decodeForm, fun a => a.positionals.head?.map .decodeId)]

/-- The command that explains the others. -/
def helpCommand : String := "help"

/-- What the topics of a request for help ask for: there is at most one, and it is a command. -/
def help? : List String → Option Invocation
  | [] => some .help
  | [topic] =>
    if topic = helpCommand ∨ (commands.lookup topic).isSome then some .help else none
  | _ => none

/-- What the options before any command ask for. -/
def option? (argument : String) : Option Invocation :=
  if argument = "--version" ∨ argument.startsWith "-V" then some .version
  else if isHelp argument then some .help
  else none

/-- **Command lines.** What a command line asks for, if it is one. -/
def Invocation.parse? : List String → Option Invocation
  | [] => none
  | name :: arguments =>
    match commands.lookup name with
    | some (form, ask) => invocation? form ask arguments
    | none => if name = helpCommand then help? arguments else option? name

end FilterQuery.Command
