import FilterQuery.Vocabulary.Error

/-!
# Combinators

A combinator joins a list of filters. Its name is in capitals, its target in a query starts with
a dollar sign.
-/

namespace FilterQuery

/-- **Combinators.** How a list of filters is joined. -/
inductive Combinator
  /-- Every filter holds. -/
  | and
  /-- Some filter holds. -/
  | or
  /-- No filter holds. -/
  | nor
deriving DecidableEq, Repr

namespace Combinator

/-- The spelling in a filter. -/
def name : Combinator → String
  | and => "AND"
  | or => "OR"
  | nor => "NOR"

/-- The spelling in a query. -/
def target : Combinator → String
  | and => "$and"
  | or => "$or"
  | nor => "$nor"

/-- The combinator that a name spells. -/
def ofName? : String → Option Combinator
  | "AND" => some and
  | "OR" => some or
  | "NOR" => some nor
  | _ => none

/-- The combinator that a name must spell. -/
def parse (name : String) : Except VocabularyError Combinator :=
  match ofName? name with
  | some combinator => .ok combinator
  | none => .error (.unknownCombinator name)

/-- Every combinator is found by its name. -/
@[simp]
theorem ofName?_name (combinator : Combinator) : ofName? combinator.name = some combinator := by
  cases combinator <;> rfl

/-- A name spells only the combinator that has it. -/
theorem name_of_ofName? {name : String} {combinator : Combinator}
    (h : ofName? name = some combinator) : combinator.name = name := by
  unfold ofName? at h
  split at h <;> cases h <;> rfl

end Combinator

end FilterQuery
