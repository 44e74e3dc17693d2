import FilterQuery.Json.Record
import FilterQuery.Text.Blank

/-!
# Options of a lowering

Two things can be chosen: what becomes of an identifier that cannot be decoded, and how deep a
filter may nest. Options are read from a JSON record (`Options.ofText`) and overridden by two
environment variables (`Options.override`); both check at the end that the depth is not zero.
-/

namespace FilterQuery

/-- **Identifier policies.** What to do with a string under `id` that no codec can decode. -/
inductive IdentifierPolicy
  /-- Keep the string. -/
  | lenient
  /-- Refuse the filter. -/
  | strict
deriving DecidableEq, Repr

/-- **Options.** -/
structure Options where
  /-- What to do with identifiers that cannot be decoded. -/
  policy : IdentifierPolicy := .lenient
  /-- How many objects of a filter may nest. -/
  maxDepth : Nat := 256
deriving DecidableEq, Repr

/-- The kinds of values that environment variables hold. -/
inductive VariableKind
  /-- A truth value. -/
  | flag
  /-- A natural number of 64 bits. -/
  | count
deriving DecidableEq, Repr

/-- **Options errors.** Why there are no options. -/
inductive OptionsError
  /-- The document has not the form of options. -/
  | malformed
  /-- An environment variable has not the form of its kind. -/
  | variable (name value : String) (kind : VariableKind)
  /-- The depth is zero. -/
  | zeroDepth
deriving DecidableEq, Repr

/-- The name of a kind of values. -/
def VariableKind.name : VariableKind → String
  | .flag => "bool"
  | .count => "usize"

/-- The error in words; a malformed document has no words of its own. -/
def OptionsError.message? : OptionsError → Option String
  | .malformed => none
  | .variable name value kind =>
    some s!"Failed to parse environment variable '{name}' with value '{value}' as {kind.name}"
  | .zeroDepth => some "max_depth must be at least 1"

/-! ### Policies -/

/-- The written form of a policy. -/
def IdentifierPolicy.tag : IdentifierPolicy → String
  | .lenient => "lenient"
  | .strict => "strict"

/-- The policy of a written form. -/
def IdentifierPolicy.ofTag? : String → Option IdentifierPolicy
  | "lenient" => some .lenient
  | "strict" => some .strict
  | _ => none

/-- The policy that a flag for strictness selects. -/
def IdentifierPolicy.ofStrict (isStrict : Bool) : IdentifierPolicy :=
  if isStrict then .strict else .lenient

namespace Options

/-- The options, if the depth is not zero. -/
def validate (options : Options) : Except OptionsError Options :=
  if options.maxDepth = 0 then .error .zeroDepth else .ok options

/-- The options with the strict policy. -/
def strict (options : Options) : Options := { options with policy := .strict }

/-! ### Reading and writing -/

open Document

/-- Reads the parts of options. -/
def read? : Reads Options := fun limit document => do
  match ← record? ["identifier_policy", "max_depth"] limit document with
  | (inner, [policy, maxDepth]) =>
    let tag := orDefault tag? IdentifierPolicy.lenient.tag inner policy
    return {
      policy := ← IdentifierPolicy.ofTag? (← tag)
      maxDepth := ← orDefault count? ({} : Options).maxDepth inner maxDepth }
  | _ => none

/-- **Reading.** The options that a document writes. -/
def ofDocument (limit : Limit) (document : Document) : Except OptionsError Options :=
  match read? limit document with
  | some options => options.validate
  | none => .error .malformed

/-- The options that a value writes. -/
def ofJson (value : Json) : Except OptionsError Options := ofDocument none (.ofJson value)

/-- The options that a text writes. -/
def ofText (text : String) : Except OptionsError Options :=
  match Document.ofText? text with
  | some document => ofDocument textLimit document
  | none => .error .malformed

/-- Writes options. -/
def toJson (options : Options) : Json :=
  .obj (.ofList [
    ("identifier_policy", .str options.policy.tag),
    ("max_depth", .num (.int options.maxDepth))])

end Options

/-! ### Environment -/

/-- **Overrides.** The values of the two environment variables, where they are set. -/
structure Overrides where
  /-- Whether identifiers that cannot be decoded are refused. -/
  strictIds : Option String := none
  /-- The depth. -/
  maxDepth : Option String := none
deriving DecidableEq, Repr

namespace Overrides

/-- The variable for the identifier policy. -/
def strictIdsVariable : String := "PARSE_WHERE_STRICT_IDS"

/-- The variable for the depth. -/
def maxDepthVariable : String := "PARSE_WHERE_MAX_DEPTH"

/-- The overrides in an environment. -/
def ofEnvironment (lookup? : String → Option String) : Overrides :=
  ⟨lookup? strictIdsVariable, lookup? maxDepthVariable⟩

end Overrides

/-- The truth value that a text writes, in letters of either case and with blanks around it. -/
def readFlag? (text : String) : Option Bool :=
  match Text.lower (Text.trim text) with
  | "true" => some true
  | "false" => some false
  | _ => none

/-- The number of 64 bits that a text writes in decimal digits, with at most a plus sign before
and blanks around it. -/
def readCount? (text : String) : Option Nat :=
  let digits := match (Text.trim text).toList with
    | '+' :: digits => digits
    | digits => digits
  if digits ≠ [] ∧ digits.all Char.isDigit then
    let value := digits.foldl (fun n c => 10 * n + (c.toNat - '0'.toNat)) 0
    if value < UInt64.size then some value else none
  else none

/-- **Overriding.** The options with the values of the variables that are set. The variable for
the policy is read first. -/
def Options.override (options : Options) (overrides : Overrides) : Except OptionsError Options := do
  let policy ← match overrides.strictIds with
    | none => .ok options.policy
    | some value => match readFlag? value with
      | some isStrict => .ok (.ofStrict isStrict)
      | none => .error (.variable Overrides.strictIdsVariable value .flag)
  let maxDepth ← match overrides.maxDepth with
    | none => .ok options.maxDepth
    | some value => match readCount? value with
      | some depth => .ok depth
      | none => .error (.variable Overrides.maxDepthVariable value .count)
  { policy, maxDepth : Options }.validate

end FilterQuery
