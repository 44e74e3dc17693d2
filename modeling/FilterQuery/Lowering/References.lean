import FilterQuery.Lowering.Identifiers
import FilterQuery.Schema.Basic
import FilterQuery.Vocabulary.RelationVerb

/-!
# References in filters

Under a field that refers to objects of another class, a filter speaks of these objects. The
verbs `have` and `haveNot` become subqueries on the class of the objects, whose filter is lowered
for that class. Operators are kept with their operands, and `where` and `notWhere` with filters
that are lowered for the class. No other key means anything.

The verb `exists` comes last, when the rest of the field is lowered: for a relation it joins the
branch that it selects, or becomes a subquery of its own.

The functions take the lowering of a filter for a class as a parameter.
-/

namespace FilterQuery

namespace Lowering

/-- The key of a nested filter. -/
def whereKey : String := "where"

/-- The key of a nested filter that objects must not satisfy. -/
def notWhereKey : String := "notWhere"

/-- The key of the class of a subquery. -/
def classNameKey : String := "className"

/-- **Subqueries.** A query on the objects of a class, or of no class if it is unknown. -/
def subquery (filter : Json) (cls : Option String) : Json :=
  .obj (.ofPresent [(whereKey, some filter), (classNameKey, cls.map .str)])

/-- A filter lowered for the class that a field refers to, or as it is if the class is unknown. -/
def lowerFor (lower : String → Json → Run Json) (reference : Field) (filter : Json) : Run Json :=
  match reference.targetClass with
  | some cls => lower cls filter
  | none => pure filter

/-- The subquery that a verb of a field becomes. -/
def expand (lower : String → Json → Run Json) (field : String) (operator : Operator)
    (reference : Field) (filter : Json) : Run Json := do
  Run.emit (match reference.targetClass with
    | some cls => .subqueryExpanded field operator cls
    | none => .subqueryUnscoped field)
  return subquery (← lowerFor lower reference filter) reference.targetClass

/-- The subquery on all objects that a field refers to. -/
def allReferred (reference : Field) : Json :=
  subquery (.obj (.singleton objectIdKey
    (.obj (.singleton Operator.presence.target (.bool true))))) reference.targetClass

/-- **Presence.** Adds the verb `exists` to the lowered conditions of a field. -/
def applyPresence (field : String) (reference : Field) (flag : Json) (lowered : Object) :
    Run Object :=
  if reference.type ≠ .relation then
    pure (lowered.insert Operator.presence.target flag)
  else
    let (branch, operator) :=
      if flag.isTruthy then (whereKey, Operator.inQuery) else (notWhereKey, Operator.notInQuery)
    match lowered.get? branch with
    | some (.obj filter) => do
      Run.emit (.presenceMerged field branch)
      return lowered.insert branch
        (.obj (Object.merge filter objectIdKey (.singleton Operator.presence.target flag)))
    | _ => pure (lowered.insert operator.target (allReferred reference))

end Lowering

end FilterQuery
