import FilterQuery.Vocabulary.Error

/-!
# Field operators

An `Operator` has two spellings: its name in a filter and its target in a constraint, which
starts with a dollar sign. Both spellings tell the operators apart (`Operator.ofName?_name`,
`Operator.target_injective`), and no target is a name (`Operator.ofName?_target`).
-/

namespace FilterQuery

/-- **Operators.** The conditions that a filter can put on a field. -/
inductive Operator
  | equalTo
  | notEqualTo
  | lessThan
  | lessThanOrEqualTo
  | greaterThan
  | greaterThanOrEqualTo
  | inList
  | notInList
  | presence
  | inQueryKey
  | notInQueryKey
  | inQuery
  | notInQuery
  | containedBy
  | contains
  | matchesRegex
  | options
  | text
  | search
  | term
  | language
  | caseSensitive
  | diacriticSensitive
  | nearSphere
  | maxDistance
  | maxDistanceInRadians
  | maxDistanceInMiles
  | maxDistanceInKilometers
  | within
  | box
  | geoWithin
  | polygon
  | centerSphere
  | geoIntersects
  | point
deriving DecidableEq, Repr

namespace Operator

/-- The operators in their customary order. -/
def all : List Operator :=
  [equalTo, notEqualTo, lessThan, lessThanOrEqualTo, greaterThan, greaterThanOrEqualTo, inList,
    notInList, presence, inQueryKey, notInQueryKey, inQuery, notInQuery, containedBy, contains,
    matchesRegex, options, text, search, term, language, caseSensitive, diacriticSensitive,
    nearSphere, maxDistance, maxDistanceInRadians, maxDistanceInMiles, maxDistanceInKilometers,
    within, box, geoWithin, polygon, centerSphere, geoIntersects, point]

/-- The spelling in a filter. -/
def name : Operator → String
  | equalTo => "equalTo"
  | notEqualTo => "notEqualTo"
  | lessThan => "lessThan"
  | lessThanOrEqualTo => "lessThanOrEqualTo"
  | greaterThan => "greaterThan"
  | greaterThanOrEqualTo => "greaterThanOrEqualTo"
  | inList => "in"
  | notInList => "notIn"
  | presence => "exists"
  | inQueryKey => "inQueryKey"
  | notInQueryKey => "notInQueryKey"
  | inQuery => "inQuery"
  | notInQuery => "notInQuery"
  | containedBy => "containedBy"
  | contains => "contains"
  | matchesRegex => "matchesRegex"
  | options => "options"
  | text => "text"
  | search => "search"
  | term => "term"
  | language => "language"
  | caseSensitive => "caseSensitive"
  | diacriticSensitive => "diacriticSensitive"
  | nearSphere => "nearSphere"
  | maxDistance => "maxDistance"
  | maxDistanceInRadians => "maxDistanceInRadians"
  | maxDistanceInMiles => "maxDistanceInMiles"
  | maxDistanceInKilometers => "maxDistanceInKilometers"
  | within => "within"
  | box => "box"
  | geoWithin => "geoWithin"
  | polygon => "polygon"
  | centerSphere => "centerSphere"
  | geoIntersects => "geoIntersects"
  | point => "point"

/-- The spelling in a constraint. -/
def target : Operator → String
  | equalTo => "$eq"
  | notEqualTo => "$ne"
  | lessThan => "$lt"
  | lessThanOrEqualTo => "$lte"
  | greaterThan => "$gt"
  | greaterThanOrEqualTo => "$gte"
  | inList => "$in"
  | notInList => "$nin"
  | presence => "$exists"
  | inQueryKey => "$select"
  | notInQueryKey => "$dontSelect"
  | inQuery => "$inQuery"
  | notInQuery => "$notInQuery"
  | containedBy => "$containedBy"
  | contains => "$all"
  | matchesRegex => "$regex"
  | options => "$options"
  | text => "$text"
  | search => "$search"
  | term => "$term"
  | language => "$language"
  | caseSensitive => "$caseSensitive"
  | diacriticSensitive => "$diacriticSensitive"
  | nearSphere => "$nearSphere"
  | maxDistance => "$maxDistance"
  | maxDistanceInRadians => "$maxDistanceInRadians"
  | maxDistanceInMiles => "$maxDistanceInMiles"
  | maxDistanceInKilometers => "$maxDistanceInKilometers"
  | within => "$within"
  | box => "$box"
  | geoWithin => "$geoWithin"
  | polygon => "$polygon"
  | centerSphere => "$centerSphere"
  | geoIntersects => "$geoIntersects"
  | point => "$point"

/-- The operator that a name spells in a filter. -/
def ofName? (name : String) : Option Operator := all.find? (·.name = name)

/-- The operator that a name must spell. -/
def parse (name : String) : Except VocabularyError Operator :=
  match ofName? name with
  | some operator => .ok operator
  | none => .error (.unknownOperator name)

/-! ### The spellings -/

/-- The list of the operators is complete. -/
theorem mem_all (operator : Operator) : operator ∈ all := by cases operator <;> decide

/-- Every operator is found by its name. -/
@[simp]
theorem ofName?_name (operator : Operator) : ofName? operator.name = some operator := by
  cases operator <;> decide

/-- A name spells only the operator that has it. -/
theorem name_of_ofName? {name : String} {operator : Operator}
    (h : ofName? name = some operator) : operator.name = name := by
  simpa using List.find?_some h

/-- No two operators share a target. -/
theorem target_injective {a b : Operator} (h : a.target = b.target) : a = b := by
  have key : ∀ a ∈ all, ∀ b ∈ all, a.target = b.target → a = b := by decide
  exact key a (mem_all a) b (mem_all b) h

/-- A target is no name of an operator. -/
@[simp]
theorem ofName?_target (operator : Operator) : ofName? operator.target = none := by
  cases operator <;> decide

end Operator

/-- The key under which the condition of a name stands in a constraint: the target of the
operator that the name spells, and any other name itself. -/
def targetKey (name : String) : String := ((Operator.ofName? name).map Operator.target).getD name

theorem targetKey_name (operator : Operator) : targetKey operator.name = operator.target := by
  rw [targetKey, Operator.ofName?_name, Option.map_some, Option.getD_some]

end FilterQuery
