import FilterQuery.Json.Basic

/-!
# Edits

Lowering an entry of a filter gives edits of the object that is being built. Edits are applied in
order, so that a later one wins where two meet.
-/

namespace FilterQuery

/-- **Edits.** A change to an object. -/
inductive Edit
  /-- Put a value under a key. -/
  | set (key : String) (value : Json)
  /-- Add members to the object under a key. -/
  | merge (key : String) (members : Object)

namespace Edit

/-- The key that an edit changes. -/
def key : Edit → String
  | .set key _ => key
  | .merge key _ => key

/-- The object after an edit. -/
def apply (target : Object) : Edit → Object
  | .set key value => target.insert key value
  | .merge key members => target.merge key members

/-- The object that edits build from nothing. -/
def build (edits : List Edit) : Object := edits.foldl apply ∅

/-- An edit changes no other key. -/
theorem get?_apply_of_ne (target : Object) (edit : Edit) {key : String} (ne : key ≠ edit.key) :
    (edit.apply target).get? key = target.get? key := by
  cases edit with
  | set k value => simpa [apply, Edit.key] using fun eq => absurd eq ne
  | merge k members => exact Object.get?_merge_of_ne target members ne

end Edit

end FilterQuery
