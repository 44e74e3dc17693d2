import FilterQuery.Schema.Basic

/-!
# What lowering reads of a schema

Of all that a schema says, lowering reads the `Link` of a field: whether the field is a pointer or
a relation, and which class it refers to. A field without a link holds plain values, whether the
schema knows it or not (`Schema.link?_eq_none_iff`).

Links lead from class to class. The classes that a filter on a class can speak of are those that
are `Schema.Reachable` from it.
-/

namespace FilterQuery

/-- **Links.** How a field refers to objects of another class. -/
structure Link where
  /-- The type of the field, a pointer or a relation. -/
  type : FieldType
  /-- The class that the field refers to, if it is known. -/
  target : Option String
deriving DecidableEq, Repr

/-- The link of a field that refers to objects of another class. -/
def Field.link (field : Field) : Link := ⟨field.type, field.targetClass⟩

namespace Schema

/-- The link of a field of a class, if the field has one. -/
def link? (schema : Schema) (cls field : String) : Option Link :=
  (schema.reference? cls field).map Field.link

/-- A field has no link exactly if what the schema knows about it, if anything, is not a reference
to other objects. -/
theorem link?_eq_none_iff {schema : Schema} {cls field : String} :
    schema.link? cls field = none ↔
      ∀ known, schema.field? cls field = some known → known.isReference = false := by
  rw [link?, Option.map_eq_none_iff, reference?, Option.filter_eq_none_iff]
  simp only [Bool.not_eq_true]

/-- **Reachability.** The classes that links lead to from a class, itself included. -/
inductive Reachable (schema : Schema) (cls : String) : String → Prop
  /-- A class is reachable from itself. -/
  | refl : Reachable schema cls cls
  /-- A link leads one class further. -/
  | step {middle field target : String} {type : FieldType} (reach : Reachable schema cls middle)
    (link : schema.link? middle field = some ⟨type, some target⟩) :
    Reachable schema cls target

end Schema

end FilterQuery
