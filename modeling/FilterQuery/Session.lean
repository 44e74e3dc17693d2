import FilterQuery.Lowering.Basic
import FilterQuery.Schema.Document

/-!
# Sessions

A `Session` holds what lowerings share: a schema, options, a codec, and the query that the last
successful lowering gave. Steps load and change these parts and lower filters. A step that fails
leaves the session as it was.
-/

namespace FilterQuery

/-- **Sessions.** What later steps build on. -/
structure Session where
  /-- The schema. -/
  schema : Schema := ∅
  /-- The options. -/
  options : Options := {}
  /-- The codec. -/
  codec : Codec := .relay
  /-- The query of the last successful lowering. -/
  last : Json := .null

namespace Session

/-- **Steps.** What can be asked of a session. -/
inductive Step
  /-- Replace the schema by one read from a text. -/
  | loadSchema (text : String)
  /-- Append a class to the schema. -/
  | addClass (cls : ClassSchema)
  /-- Replace the options by ones read from a text. -/
  | loadOptions (text : String)
  /-- Override the options. -/
  | override (overrides : Overrides)
  /-- Refuse identifiers that cannot be decoded. -/
  | makeStrict
  /-- Replace the codec. -/
  | useCodec (codec : Codec)
  /-- Encode an identifier. -/
  | encode (identifier : GlobalId)
  /-- Lower a filter, or the last query once more. -/
  | lower (cls : String) (filter : Option Json)

/-- **Answers.** What a successful step gives. -/
inductive Answer
  /-- The number of classes that were loaded. -/
  | classCount (count : Nat)
  /-- The schema as it is now. -/
  | schema (schema : Schema)
  /-- The options as they are now. -/
  | options (options : Options)
  /-- Nothing. -/
  | done
  /-- An encoded identifier. -/
  | encoded (text : String)
  /-- A query. -/
  | query (query : Json)

/-- **Step errors.** Why a step failed. -/
inductive StepError
  /-- There is no schema. -/
  | schema (error : SchemaError)
  /-- There are no options. -/
  | options (error : OptionsError)
  /-- The filter has no query. -/
  | lowering (error : LoweringError)
deriving DecidableEq, Repr

/-- The session after a successful step, and the answer. -/
def attempt (s : Session) : Step → Except StepError (Session × Answer)
  | .loadSchema text => do
    let schema ← (Schema.ofText text).mapError .schema
    return ({ s with schema }, .classCount schema.classes.length)
  | .addClass cls => do
    let schema ← (s.schema.addClass cls).mapError .schema
    return ({ s with schema }, .schema schema)
  | .loadOptions text => do
    let options ← (Options.ofText text).mapError .options
    return ({ s with options }, .options options)
  | .override overrides => do
    let options ← (s.options.override overrides).mapError .options
    return ({ s with options }, .options options)
  | .makeStrict =>
    let options := s.options.strict
    .ok ({ s with options }, .options options)
  | .useCodec codec => .ok ({ s with codec }, .done)
  | .encode identifier => .ok (s, .encoded (s.codec.encode identifier))
  | .lower cls filter => do
    let cx := Context.of s.schema s.codec s.options
    let query ← (Lowering.lower cx cls (filter.getD s.last)).result.mapError .lowering
    return ({ s with last := query }, .query query)

/-- **Steps.** The session after a step, which is the one before it if the step failed. -/
def step (s : Session) (next : Step) : Session × Except StepError Answer :=
  match s.attempt next with
  | .ok (s', answer) => (s', .ok answer)
  | .error error => (s, .error error)

/-- **Runs.** The session after steps, and what each of them gave. -/
def run (s : Session) : List Step → Session × List (Except StepError Answer)
  | [] => (s, [])
  | next :: rest =>
    let (s, answer) := s.step next
    let (s, answers) := s.run rest
    (s, answer :: answers)

/-- A step that fails leaves the session as it was. -/
theorem step_of_error {s : Session} {next : Step} {error : StepError}
    (h : (s.step next).2 = .error error) : (s.step next).1 = s := by
  unfold step at h ⊢
  split at h
  · cases h
  · rfl

end Session

end FilterQuery
