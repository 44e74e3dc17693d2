import FilterQuery.Vocabulary.Error

/-!
# Verbs of reference fields

A field that refers to objects of another class takes three verbs of its own in a filter.
-/

namespace FilterQuery

/-- **Relation verbs.** What a filter can ask about the objects that a field refers to. -/
inductive RelationVerb
  /-- An object that the field refers to satisfies the filter. -/
  | matching
  /-- No object that the field refers to satisfies the filter. -/
  | notMatching
  /-- The field refers to an object at all. -/
  | presence
deriving DecidableEq, Repr

namespace RelationVerb

/-- The spelling in a filter. -/
def name : RelationVerb → String
  | matching => "have"
  | notMatching => "haveNot"
  | presence => "exists"

/-- The verb that a name spells. -/
def ofName? : String → Option RelationVerb
  | "have" => some matching
  | "haveNot" => some notMatching
  | "exists" => some presence
  | _ => none

/-- The verb that a name must spell. -/
def parse (name : String) : Except VocabularyError RelationVerb :=
  match ofName? name with
  | some verb => .ok verb
  | none => .error (.unknownVerb name)

/-- Every verb is found by its name. -/
@[simp]
theorem ofName?_name (verb : RelationVerb) : ofName? verb.name = some verb := by
  cases verb <;> rfl

/-- A name spells only the verb that has it. -/
theorem name_of_ofName? {name : String} {verb : RelationVerb} (h : ofName? name = some verb) :
    verb.name = name := by
  unfold ofName? at h
  split at h <;> cases h <;> rfl

end RelationVerb

end FilterQuery
