import FilterQuery.Lowering.Basic
import FilterQuery.Proofs.Operand

/-!
# Objects of a filter

Lowering walks from object to object, and what it does with an object depends on where the object
stands. A `Place` is either that of a filter, whose entries are combinators and fields, or that of
the conditions of a field. `Visited` are the objects that the walk meets in a filter on a class
without references, each with its place.

Each place has its own way of naming keys anew (`Place.target`): combinators and `id` in a filter,
operators in conditions.
-/

namespace FilterQuery

namespace Lowering

/-- **Places.** Where an object stands in a filter. -/
inductive Place
  /-- The object is a filter. -/
  | filter
  /-- The object holds the conditions of a field. -/
  | conditions (field : String)
deriving DecidableEq, Repr

/-- **Visits.** The objects of an input with their places: a filter, the filters in the lists of
its combinators, and under its other keys the conditions of fields. An operand under `where` is a
filter again, and any other object among the operands holds conditions again. -/
inductive Visited (input : Json) : Place → Object → Prop
  /-- The input itself is a filter. -/
  | input {filter : Object} (eq : input = .obj filter) : Visited input .filter filter
  /-- A filter in the list of a combinator. -/
  | branch {filter branch : Object} {key : String} {combinator : Combinator} {items : List Json}
    (visit : Visited input .filter filter) (name : Combinator.ofName? key = some combinator)
    (entry : filter.get? key = some (.arr items)) (mem : .obj branch ∈ items) :
    Visited input .filter branch
  /-- The conditions of a field. -/
  | field {filter operands : Object} {key : String} (visit : Visited input .filter filter)
    (name : Combinator.ofName? key = none) (entry : filter.get? key = some (.obj operands)) :
    Visited input (.conditions key) operands
  /-- The filter under `where`. -/
  | whereFilter {field : String} {operands filter : Object}
    (visit : Visited input (.conditions field) operands)
    (entry : operands.get? whereKey = some (.obj filter)) : Visited input .filter filter
  /-- Conditions among conditions. -/
  | nested {field name : String} {operands nested : Object}
    (visit : Visited input (.conditions field) operands) (ne : name ≠ whereKey)
    (entry : operands.get? name = some (.obj nested)) : Visited input (.conditions name) nested

/-- **Keys.** The key that an entry is sent to. In a filter a combinator goes to its target, and
`id` to the key of local ids if there is a class. In conditions an operator goes to its target,
and `id` goes to the key of local ids if there is a class and its operand is an object. Every
other key stays. -/
def Place.target (cls : String) : Place → String → Json → String
  | .filter, key, _ => match Combinator.ofName? key with
    | some combinator => combinator.target
    | none => outputKey cls key key
  | .conditions _, name, .obj _ => outputKey cls name (targetKey name)
  | .conditions _, name, _ => targetKey name

theorem Place.target_filter_of_some {cls key : String} {combinator : Combinator}
    (h : Combinator.ofName? key = some combinator) (value : Json) :
    Place.filter.target cls key value = combinator.target := by
  rw [Place.target, h]

theorem Place.target_filter_of_none {cls key : String} (h : Combinator.ofName? key = none)
    (value : Json) : Place.filter.target cls key value = outputKey cls key key := by
  rw [Place.target, h]

/-- No two entries of an object are sent to the same key. -/
def Place.Apart (cls : String) (place : Place) (members : Object) : Prop :=
  (members.toList.map fun entry => place.target cls entry.1 entry.2).Nodup

/-- No operand is a pair. -/
def Unpaired (operands : Object) : Prop :=
  ∀ name operand, operands.get? name = some operand → (Operand.ofJson operand).pair? = none

/-- Operands are not pairs if none of the entries is one. -/
theorem unpaired_iff {operands : Object} :
    Unpaired operands ↔ ∀ entry ∈ operands.toList, (Operand.ofJson entry.2).pair?.isNone := by
  simp only [Option.isNone_iff_eq_none]
  constructor
  · rintro unpaired ⟨name, operand⟩ mem
    exact unpaired name operand (Dict.mem_toList.mp mem)
  · exact fun each name operand found => each (name, operand) (Dict.mem_toList.mpr found)

instance {operands : Object} : Decidable (Unpaired operands) := decidable_of_iff' _ unpaired_iff

/-- The operators whose operands are encoded. -/
def geographic : List Operator :=
  [.point, .nearSphere, .box, .polygon, .centerSphere]

/-- No operator takes an operand that is encoded. -/
def GeoFree (operands : Object) : Prop :=
  ∀ operator ∈ geographic, operands.get? operator.name = none

/-- An operator that is not geographic leaves its operand as it is. -/
theorem encode_of_not_geographic {operator : Operator} (other : operator ∉ geographic)
    (value : Json) : Geo.encode (some operator) (.ofJson value) = value := by
  simp only [geographic, List.mem_cons, List.not_mem_nil, or_false, not_or] at other
  obtain ⟨point, nearSphere, box, polygon, centerSphere⟩ := other
  cases operator <;> first | contradiction | exact Operand.toJson_ofJson value

/-- Away from the geographic operators an operand is not encoded. -/
theorem encode_of_geoFree {operands : Object} (free : GeoFree operands) {name : String}
    {operand : Json} (entry : operands.get? name = some operand) (value : Json) :
    Geo.encode (Operator.ofName? name) (.ofJson value) = value := by
  rcases spelled : Operator.ofName? name with _ | operator
  · exact Operand.toJson_ofJson value
  · refine encode_of_not_geographic (fun mem => ?_) value
    have absent := free operator mem
    rw [Operator.name_of_ofName? spelled, entry] at absent
    cases absent

end Lowering

end FilterQuery
