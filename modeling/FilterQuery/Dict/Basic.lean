/-!
# Dictionaries in key order

A `Dict α` holds one value per key, and its entries stand in strictly ascending order of their
keys, which is the order of Unicode code points. The order is part of the type: an entry carries
the proof that its key follows the key before it. So a dictionary is determined by what it
answers to `get?` (`Dict.ext_get?`), whatever the order in which it was built, and every walk
over the entries meets them in the same order.

`Dict α` stands for `Dict α none`. With a bound, `Dict α (some key)` is the remainder of a
dictionary after the entry of `key`; the recursions run over such remainders.

## Main definitions

* `Dict`: the type, with `get?`, `toList`, `keys` and `map` on every remainder;
* `insert`, `erase`, `union` and `ofList`: the operations on whole dictionaries.
-/

namespace FilterQuery

universe u v

/-- **Bounds.** A key follows a bound when it is greater; every key follows the absent bound. -/
def Follows : Option String → String → Prop
  | none, _ => True
  | some bound, key => bound < key

instance : (bound : Option String) → (key : String) → Decidable (Follows bound key)
  | none, _ => inferInstanceAs (Decidable True)
  | some bound, key => inferInstanceAs (Decidable (bound < key))

/-- A greater key follows. -/
theorem Follows.of_lt {bound key : String} (lt : bound < key) : Follows (some bound) key := lt

/-- A key that is neither smaller nor the same follows. -/
theorem Follows.of_not_lt {bound key : String} (not : ¬ key < bound) (ne : ¬ key = bound) :
    Follows (some bound) key :=
  .of_lt (Std.lt_of_le_of_ne (String.not_lt.mp not) (Ne.symm ne))

/-- A key after a key that follows the bound follows the bound too. -/
theorem Follows.trans {bound : Option String} {key later : String} (follows : Follows bound key)
    (lt : key < later) : Follows bound later := by
  cases bound with
  | none => trivial
  | some bound => exact String.lt_trans follows lt

/-- **Dictionaries.** Finite maps from strings, as entries in strictly ascending key order that
all follow the bound. -/
inductive Dict (α : Type u) : (bound : Option String := none) → Type u
  /-- No entry. -/
  | nil {bound : Option String} : Dict α bound
  /-- An entry, then the entries whose keys follow its key. -/
  | cons {bound : Option String} (key : String) (follows : Follows bound key) (value : α)
      (rest : Dict α (some key)) : Dict α bound

namespace Dict

variable {α : Type u} {β : Type v} {bound : Option String}

instance : EmptyCollection (Dict α bound) := ⟨.nil⟩

instance : Inhabited (Dict α bound) := ⟨.nil⟩

/-! ### Views -/

/-- The entries in key order. -/
def toList {bound : Option String} : Dict α bound → List (String × α)
  | .nil => []
  | .cons key _ value rest => (key, value) :: rest.toList

/-- The keys in ascending order. -/
def keys (d : Dict α bound) : List String := d.toList.map Prod.fst

/-- The number of entries. -/
def size (d : Dict α bound) : Nat := d.toList.length

/-- The value under a key. -/
def get? {bound : Option String} : Dict α bound → String → Option α
  | .nil, _ => none
  | .cons key _ value rest, k => if k = key then some value else rest.get? k

/-- Is there an entry under the key? -/
def contains (d : Dict α bound) (key : String) : Bool := (d.get? key).isSome

/-- The values through a function, each under its own key. -/
def map {bound : Option String} (f : α → β) : Dict α bound → Dict β bound
  | .nil => .nil
  | .cons key follows value rest => .cons key follows (f value) (rest.map f)

/-! ### Operations on remainders -/

/-- The entries of a remainder, under any bound that its first key still follows. -/
def relax {key : String} (rest : Dict α (some key)) (follows : Follows bound key) :
    Dict α bound :=
  match rest with
  | .nil => .nil
  | .cons later lt value rest => .cons later (follows.trans lt) value rest

/-- A remainder with one entry replaced or added. -/
def insertAfter {bound : Option String} (k : String) (v : α) :
    Dict α bound → Follows bound k → Dict α bound
  | .nil, follows => .cons k follows v .nil
  | .cons key keyFollows value rest, follows =>
    if lt : k < key then .cons k follows v (.cons key (.of_lt lt) value rest)
    else if eq : k = key then .cons key keyFollows v rest
    else .cons key keyFollows value
      (rest.insertAfter k v (.of_not_lt lt eq))

/-- A remainder without the entry under a key. -/
def erase {bound : Option String} : Dict α bound → String → Dict α bound
  | .nil, _ => .nil
  | .cons key follows value rest, k =>
    if k = key then rest.relax follows else .cons key follows value (rest.erase k)

/-! ### Operations on whole dictionaries -/

/-- The dictionary with one entry replaced or added. -/
def insert (d : Dict α) (key : String) (value : α) : Dict α := d.insertAfter key value trivial

/-- The dictionary with a single entry. -/
def singleton (key : String) (value : α) : Dict α := insert ∅ key value

/-- The first dictionary with each entry of the second inserted. -/
def union (d e : Dict α) : Dict α := e.toList.foldl (fun d entry => d.insert entry.1 entry.2) d

instance : Union (Dict α) := ⟨union⟩

/-- The dictionary of a list of entries, where a later entry replaces an earlier one. -/
def ofList (entries : List (String × α)) : Dict α :=
  entries.foldl (fun d entry => d.insert entry.1 entry.2) ∅

/-- The dictionary of those entries that have a value. -/
def ofPresent (entries : List (String × Option α)) : Dict α :=
  ofList (entries.filterMap fun entry => entry.2.map (entry.1, ·))

end Dict

end FilterQuery
