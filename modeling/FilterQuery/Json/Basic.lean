import FilterQuery.Dict.Lemmas
import FilterQuery.Json.Number.Basic

/-!
# JSON values

A `Json` value is null, a boolean, a number, a string, a list or an object. The members of an
object form a `Dict`, so they have no order of their own and every walk meets them in ascending
key order.

## Main definitions and statements

* `Json.induction`: induction over the elements of lists and the members of objects;
* `Json.isTruthy`: the value as a flag;
* `Json.objectDepth`: the longest chain of objects each inside the one before;
* `Object.merge`: the write that adds members to the object under a key.
-/

namespace FilterQuery

/-- **JSON values.** -/
inductive Json
  /-- The null value. -/
  | null
  /-- A boolean. -/
  | bool (value : Bool)
  /-- A number. -/
  | num (value : Number)
  /-- A string. -/
  | str (value : String)
  /-- A list. -/
  | arr (items : List Json)
  /-- An object. -/
  | obj (members : Dict Json)

/-- The members of a JSON object. -/
abbrev Object := Dict Json

namespace Json

instance : Inhabited Json := ⟨.null⟩

/-! ### Induction -/

/-- The elements of lists and the members of objects are smaller than the value. -/
@[elab_as_elim]
theorem induction {motive : Json → Prop} (null : motive .null)
    (bool : ∀ value, motive (.bool value)) (num : ∀ value, motive (.num value))
    (str : ∀ value, motive (.str value))
    (arr : ∀ items, (∀ item ∈ items, motive item) → motive (.arr items))
    (obj : ∀ members : Object, (∀ entry ∈ members.toList, motive entry.2) →
      motive (.obj members))
    (value : Json) : motive value := by
  refine @Json.rec motive (fun items => ∀ item ∈ items, motive item)
    (fun _ members => ∀ entry ∈ Dict.toList members, motive entry.2)
    null bool num str arr obj ?_ ?_ ?_ ?_ value
  · simp
  · intro item items head tail
    simpa using ⟨head, tail⟩
  · simp [Dict.toList]
  · intro _ key _ value rest head tail
    simpa [Dict.toList] using ⟨head, fun key value mem => tail (key, value) mem⟩

/-! ### Equality -/

mutual

/-- Equality of values is decidable. -/
protected def decEq : (a b : Json) → Decidable (a = b)
  | .null, .null => isTrue rfl
  | .bool a, .bool b => decidable_of_iff (a = b) (by simp)
  | .num a, .num b => decidable_of_iff (a = b) (by simp)
  | .str a, .str b => decidable_of_iff (a = b) (by simp)
  | .arr a, .arr b => match Json.decEqItems a b with
    | isTrue h => isTrue (by rw [h])
    | isFalse h => isFalse (by simpa)
  | .obj a, .obj b => match Json.decEqMembers a b with
    | isTrue h => isTrue (by rw [h])
    | isFalse h => isFalse (by simpa)
  | .null, .bool _ | .null, .num _ | .null, .str _ | .null, .arr _ | .null, .obj _
  | .bool _, .null | .bool _, .num _ | .bool _, .str _ | .bool _, .arr _ | .bool _, .obj _
  | .num _, .null | .num _, .bool _ | .num _, .str _ | .num _, .arr _ | .num _, .obj _
  | .str _, .null | .str _, .bool _ | .str _, .num _ | .str _, .arr _ | .str _, .obj _
  | .arr _, .null | .arr _, .bool _ | .arr _, .num _ | .arr _, .str _ | .arr _, .obj _
  | .obj _, .null | .obj _, .bool _ | .obj _, .num _ | .obj _, .str _ | .obj _, .arr _ =>
    isFalse nofun

/-- Equality of the elements of two lists is decidable. -/
protected def decEqItems : (a b : List Json) → Decidable (a = b)
  | [], [] => isTrue rfl
  | [], _ :: _ | _ :: _, [] => isFalse nofun
  | a :: as, b :: bs => match Json.decEq a b, Json.decEqItems as bs with
    | isTrue h, isTrue h' => isTrue (by rw [h, h'])
    | isFalse h, _ => isFalse (by simp [h])
    | _, isFalse h => isFalse (by simp [h])

/-- Equality of the members of two objects is decidable. -/
protected def decEqMembers {bound : Option String} : (a b : Dict Json bound) → Decidable (a = b)
  | .nil, .nil => isTrue rfl
  | .nil, .cons .. | .cons .., .nil => isFalse nofun
  | .cons key _ value rest, .cons key' _ value' rest' =>
    if eq : key = key' then by
      subst eq
      exact match Json.decEq value value', Json.decEqMembers rest rest' with
      | isTrue h, isTrue h' => isTrue (by rw [h, h'])
      | isFalse h, _ => isFalse (by simp [h])
      | _, isFalse h => isFalse (by simp [h])
    else isFalse (by simp [eq])

end

instance : DecidableEq Json := Json.decEq

instance : DecidableEq Object := Json.decEqMembers

/-! ### Truth and depth -/

/-- **Flags.** Null, `false`, zero and the empty string are not truthy; every other value is. -/
def isTruthy : Json → Bool
  | .null => false
  | .bool value => value
  | .num value => !value.isZero
  | .str value => value ≠ ""
  | .arr _ => true
  | .obj _ => true

/-- Is the value an object? -/
def isObject : Json → Bool
  | .obj _ => true
  | _ => false

theorem exists_of_isObject {value : Json} (object : value.isObject = true) :
    ∃ members, value = .obj members := by
  cases value with
  | obj members => exact ⟨members, rfl⟩
  | _ => cases object

/-- The members of an object. -/
def members? : Json → Option Object
  | .obj members => some members
  | _ => none

mutual

/-- **Object depth.** The length of the longest chain of objects each inside the one before;
lists in between do not count. -/
def objectDepth : Json → Nat
  | .null | .bool _ | .num _ | .str _ => 0
  | .arr items => itemsDepth items
  | .obj members => membersDepth members + 1

/-- The greatest object depth among the elements of a list. -/
def itemsDepth : List Json → Nat
  | [] => 0
  | item :: items => max item.objectDepth (itemsDepth items)

/-- The greatest object depth among the values of the members. -/
def membersDepth {bound : Option String} : Dict Json bound → Nat
  | .nil => 0
  | .cons _ _ value rest => max value.objectDepth (membersDepth rest)

end

end Json

namespace Object

/-- **Merging.** Adds members to the object under a key, replacing members of the same name; a
value under the key that is no object gives way to an object of the new members. -/
def merge (parent : Object) (key : String) (members : Object) : Object :=
  match parent.get? key with
  | some (.obj existing) => parent.insert key (.obj (existing ∪ members))
  | _ => parent.insert key (.obj members)

/-- Merging changes no other key. -/
theorem get?_merge_of_ne (parent : Object) (members : Object) {key other : String}
    (ne : other ≠ key) : (parent.merge key members).get? other = parent.get? other := by
  rw [merge]
  split <;> simp [ne]

end Object

end FilterQuery
