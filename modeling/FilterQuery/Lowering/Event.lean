import FilterQuery.Identifier
import FilterQuery.Vocabulary.Combinator
import FilterQuery.Vocabulary.Operator

/-!
# What a lowering reports

A lowering reports what it does as a list of events. Every event has a level and a wording, and
an error ends the list.
-/

namespace FilterQuery

/-- **Levels.** How much an event matters. -/
inductive Level
  /-- Of interest in a close look only. -/
  | trace
  /-- Explains the result. -/
  | debug
  /-- The query may not be what was meant. -/
  | warn
deriving DecidableEq, Repr

/-- The written form of a level. -/
def Level.tag : Level → String
  | .trace => "TRACE"
  | .debug => "DEBUG"
  | .warn => "WARN"

/-- **Events.** What a lowering reports. -/
inductive Event
  /-- The conditions of a field of a class are being lowered. -/
  | fieldEntered (field cls : String)
  /-- The conditions on `id` become conditions on the object id. -/
  | idMoved (cls : String)
  /-- An identifier of another class is kept as it is. -/
  | foreignKept (type cls : String)
  /-- A string that is no identifier is kept as it is. -/
  | undecodableKept (value : String) (cause : IdentifierError)
  /-- A combinator has an operand that is no list, which is kept as it is. -/
  | branchesKept (combinator : Combinator)
  /-- A condition on a path inside a field moves to the dotted path. -/
  | pathFlattened (target path : String)
  /-- A field leaves no constraint of its own, since it moved to dotted paths. -/
  | fieldDropped (field : String)
  /-- A filter on the objects that a field refers to becomes a subquery on their class. -/
  | subqueryExpanded (field : String) (operator : Operator) (cls : String)
  /-- A subquery has no class, since the class that the field refers to is unknown. -/
  | subqueryUnscoped (field : String)
  /-- A key under a reference field means nothing there. -/
  | keyDropped (name field : String)
  /-- The condition that there is an object joins the filter on these objects. -/
  | presenceMerged (field branch : String)
deriving DecidableEq, Repr

namespace Event

/-- The level of an event. -/
def level : Event → Level
  | .fieldEntered .. | .foreignKept .. | .undecodableKept .. => .trace
  | .subqueryUnscoped .. => .warn
  | _ => .debug

/-- The event in words. -/
def message : Event → String
  | .fieldEntered field cls => s!"Rewriting constraints of '{field}' on '{cls}'"
  | .idMoved cls => s!"Moving id constraints of '{cls}' to objectId"
  | .foreignKept type cls =>
    s!"Identifier of type '{type}' does not belong to '{cls}', keeping it"
  | .undecodableKept value cause => s!"Keeping undecodable identifier '{value}': {cause.message}"
  | .branchesKept combinator => s!"Operand of {combinator.name} is not a list, keeping it as is"
  | .pathFlattened target path => s!"Flattening '{target}' constraint into '{path}'"
  | .fieldDropped field =>
    s!"Constraints of '{field}' were moved to dotted paths, dropping the field"
  | .subqueryExpanded field operator cls =>
    s!"Expanding '{field}' into {operator.target} on '{cls}'"
  | .subqueryUnscoped field =>
    s!"Reference field '{field}' has no target class, subquery is left unscoped"
  | .keyDropped name field => s!"Dropping unsupported key '{name}' under reference field '{field}'"
  | .presenceMerged field branch => s!"Merging exists on '{field}' into its {branch} branch"

end Event

/-- **Lowering errors.** Why a filter has no query. -/
inductive LoweringError
  /-- A string under `id` is no identifier, and the policy is strict. -/
  | invalidIdentifier (value : String) (cause : IdentifierError)
  /-- The filter nests deeper than the limit. -/
  | depthExceeded (limit : Nat)
deriving DecidableEq, Repr

/-- The error in words. -/
def LoweringError.message : LoweringError → String
  | .invalidIdentifier value cause => s!"Invalid identifier '{value}': {cause.message}"
  | .depthExceeded limit =>
    s!"Where input nests deeper than the configured limit of {limit} levels"

end FilterQuery
