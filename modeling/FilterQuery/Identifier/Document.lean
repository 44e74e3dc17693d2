import FilterQuery.Identifier
import FilterQuery.Json.Record

/-!
# Identifiers as JSON

A decoded identifier is a record of its type and its id.
-/

namespace FilterQuery

open Document

namespace GlobalId

/-- Reads an identifier. -/
def read? : Reads GlobalId := fun limit document => do
  match ← record? ["type", "id"] limit document with
  | (inner, [type, id]) =>
    return ⟨← present text? inner type, ← present text? inner id⟩
  | _ => none

/-- **Reading.** The identifier that a value writes. -/
def ofJson? (value : Json) : Option GlobalId := read? none (.ofJson value)

end GlobalId

end FilterQuery
