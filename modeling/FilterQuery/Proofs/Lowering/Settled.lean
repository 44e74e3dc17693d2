import FilterQuery.Proofs.Lowering.Renaming.Basic
import FilterQuery.Proofs.Lowering.Steps
import FilterQuery.Proofs.Schema

/-!
# Settled objects

An object is *settled* if lowering has nothing to do in it: every key is its own target, no
condition is a pair, and the objects under its keys are settled too (`Settled`). It comes with a
number of levels that suffice to enter all these objects. Lists are not entered, whatever they hold.

A field that holds plain values keeps settled conditions as they are
(`result_fieldStep_of_settled`), and on a class without references a settled filter is its own query
(`lower_of_settled`). No codec has a part in this, since no condition is on identifiers, and nothing
is encoded, since no name is an operator.
-/

namespace FilterQuery

namespace Lowering

/-- The place of an object that stands under a key. -/
def Place.below : Place → String → Place
  | .filter, key => .conditions key
  | .conditions _, name => if name = whereKey then .filter else .conditions name

theorem Place.below_conditions_whereKey (field : String) :
    (Place.conditions field).below whereKey = .filter := rfl

theorem Place.below_conditions_of_ne {name : String} (ne : name ≠ whereKey) (field : String) :
    (Place.conditions field).below name = .conditions name := if_neg ne

/-- The name of a field has no part in what its conditions are sent to. -/
theorem Place.target_conditions (field other cls name : String) (operand : Json) :
    (Place.conditions field).target cls name operand =
      (Place.conditions other).target cls name operand := by
  cases operand <;> rfl

/-- **Settled objects.** Every key is its own target, no condition is a pair, and the objects below
are settled as far as levels are left. -/
inductive Settled (cls : String) : Nat → Place → Object → Prop
  /-- An object takes one level and leaves the others to the objects under its keys. -/
  | intro {levels : Nat} {place : Place} {members : Object}
    (fixed : ∀ key value, members.get? key = some value → place.target cls key value = key)
    (unpaired : ∀ field, place = .conditions field → Unpaired members)
    (below : ∀ key nested, members.get? key = some (.obj nested) →
      Settled cls levels (place.below key) nested) :
    Settled cls (levels + 1) place members

section Targets

variable {cls key name : String} {value operand : Json}

/-- The names that are their own targets are those that are no operators. -/
theorem targetKey_eq_self_iff : targetKey name = name ↔ Operator.ofName? name = none := by
  rw [targetKey]
  rcases spelled : Operator.ofName? name with _ | operator
  · simp
  · have ne : operator.target ≠ name := by
      intro eq
      have unspelled := Operator.ofName?_target operator
      rw [eq, spelled] at unspelled
      cases unspelled
    simpa using ne

/-- Conditions on identifiers never stay under their own key. -/
theorem outputKey_eq_self_iff : outputKey cls key key = key ↔ isIdField cls key = false := by
  rcases isId : isIdField cls key
  · simp [outputKey, isId]
  · obtain ⟨rfl, -⟩ := isIdField_iff.mp isId
    have ne : objectIdKey ≠ idField := by decide
    simpa [outputKey, isId] using ne

/-- The keys of a filter that are their own targets are those of fields, `id` apart. -/
theorem Place.target_filter_eq_self_iff :
    Place.filter.target cls key value = key ↔
      Combinator.ofName? key = none ∧ isIdField cls key = false := by
  rcases spelled : Combinator.ofName? key with _ | combinator
  · rw [Place.target_filter_of_none spelled, outputKey_eq_self_iff]
    simp
  · have ne : combinator.target ≠ combinator.name := by cases combinator <;> decide
    rw [Place.target_filter_of_some spelled, ← Combinator.name_of_ofName? spelled]
    simpa using ne

/-- The names of conditions that are their own targets are no operators, and `id` is one of them
only with an operand that is no object. -/
theorem Place.target_conditions_eq_self_iff {field : String} :
    (Place.conditions field).target cls name operand = name ↔
      Operator.ofName? name = none ∧ (operand.isObject = true → isIdField cls name = false) := by
  have moved : isIdField cls name = true → outputKey cls name (targetKey name) ≠ name := by
    intro isId
    obtain ⟨rfl, hasClass⟩ := isIdField_iff.mp isId
    rw [outputKey_of_id rfl hasClass]
    decide
  cases operand with
  | obj nested =>
    rcases isId : isIdField cls name
    · simp [Place.target, outputKey, isId, targetKey_eq_self_iff]
    · simpa [Place.target, Json.isObject] using moved isId
  | _ => simp [Place.target, Json.isObject, targetKey_eq_self_iff]

end Targets

/-- The name of a field has no part in whether its conditions are settled. -/
theorem Settled.relocate {cls field : String} {levels : Nat} {operands : Object}
    (settled : Settled cls levels (.conditions field) operands) (other : String) :
    Settled cls levels (.conditions other) operands := by
  obtain ⟨fixed, unpaired, below⟩ := settled
  refine .intro (fun name operand entry => ?_) (fun _ _ => unpaired field rfl) below
  rw [Place.target_conditions other field]
  exact fixed name operand entry

/-! ### Steps -/

/-- **Levels below that keep.** What is settled is lowered to itself. -/
structure Below.Keeps (cls : String) (levels : Nat) (below : Below) : Prop where
  /-- Filters are kept. -/
  filter : ∀ filter, Settled cls levels .filter filter →
    (below.filter cls filter).result = .ok filter
  /-- Conditions are kept and go to the key that they are meant for. -/
  field : ∀ field key operands, isIdField cls field = false →
    Settled cls levels (.conditions field) operands →
      (below.field cls field key operands).result = .ok [.merge key operands]

/-- Nothing is settled without levels. -/
theorem Below.keeps_zero (cls : String) (below : Below) : below.Keeps cls 0 := ⟨nofun, nofun⟩

/-- The edit that puts an operand under its name. A filter is set, other objects are merged. -/
def keepingEdit (name : String) (operand : Json) : Edit :=
  if name = whereKey then .set name operand else .put name operand

theorem key_keepingEdit (name : String) (operand : Json) :
    (keepingEdit name operand).key = name := by
  unfold keepingEdit
  split
  · rfl
  · exact Edit.key_put name operand

theorem written_keepingEdit (name : String) (operand : Json) :
    (keepingEdit name operand).written = operand := by
  unfold keepingEdit
  split
  · rfl
  · exact Edit.written_put name operand

theorem keepingEdit_of_literal {operand : Json} (literal : operand.isObject = false)
    (name : String) : keepingEdit name operand = .set name operand := by
  rw [keepingEdit, Edit.put_of_literal literal, ite_self]

section Steps

variable {cx : Context} {below : Below} {cls : String} {levels : Nat} {members : Object}

/-- An entry of a settled filter is put under its key. -/
theorem result_entryStep_of_settled (keeps : below.Keeps cls levels)
    (settled : Settled cls (levels + 1) .filter members) {key : String} {value : Json}
    (entry : members.get? key = some value) :
    (entryStep below cls key value).result = .ok [.put key value] := by
  obtain ⟨fixed, -, inner⟩ := settled
  obtain ⟨noName, notId⟩ := Place.target_filter_eq_self_iff.mp (fixed key value entry)
  cases value with
  | obj operands =>
    rw [entryStep_obj noName]
    exact keeps.field key key operands notId (inner key operands entry)
  | _ =>
    rw [entryStep_literal noName rfl, outputKey_of_not_id notId]
    rfl

/-- A settled filter is kept. -/
theorem result_filterStep_of_settled (keeps : below.Keeps cls levels)
    (settled : Settled cls (levels + 1) .filter members) :
    (filterStep below cls members).result = .ok members := by
  have steps : ∀ entry ∈ members.toList, (entryStep below cls entry.1 entry.2).result =
      .ok [Edit.put entry.1 entry.2] := fun entry mem =>
    result_entryStep_of_settled keeps settled (Dict.mem_toList.mp mem)
  have flat : (members.toList.map fun entry => [Edit.put entry.1 entry.2]).flatten =
      members.toList.map fun entry => Edit.put entry.1 entry.2 := by
    rw [← List.flatMap_def, ← List.map_eq_flatMap]
  rw [result_filterStep, Except.mapM_eq_ok_map steps, Except.map_ok, flat,
    Edit.build_entries Edit.key_put Edit.written_put]

/-- A settled condition is put under its name. -/
theorem result_part_of_settled {field : String} (plain : cx.schema.reference? cls field = none)
    (keeps : below.Keeps cls levels)
    (settled : Settled cls (levels + 1) (.conditions field) members) {name : String}
    {operand : Json} (entry : members.get? name = some operand) :
    (part cx below cls field name operand).result = .ok (.own [keepingEdit name operand]) := by
  obtain ⟨fixed, unpaired, inner⟩ := settled
  obtain ⟨noOperator, notId⟩ :=
    Place.target_conditions_eq_self_iff.mp (fixed name operand entry)
  have target : targetKey name = name := targetKey_eq_self_iff.mpr noOperator
  have encoded : Geo.encode none (.ofJson operand) = operand := Operand.toJson_ofJson operand
  rw [part_of_plain (pairUnder?_eq_none (unpaired field rfl name operand entry) field) plain,
    plainPart, noOperator, encoded, target]
  cases operand with
  | obj nested =>
    have settled := inner name nested entry
    dsimp only
    split
    · next isWhere =>
      subst isWhere
      rw [Place.below_conditions_whereKey] at settled
      rw [Run.result_bind, keeps.filter nested settled]
      rfl
    · next ne =>
      rw [Place.below_conditions_of_ne ne] at settled
      rw [Run.result_bind, keeps.field name name nested (notId rfl) settled, keepingEdit,
        if_neg ne]
      rfl
  | _ =>
    rw [keepingEdit_of_literal rfl]
    rfl

/-- Settled conditions are kept. -/
theorem result_fieldStep_of_settled {field : String}
    (plain : cx.schema.reference? cls field = none) (notId : isIdField cls field = false)
    (keeps : below.Keeps cls levels)
    (settled : Settled cls (levels + 1) (.conditions field) members) (key : String) :
    (fieldStep cx below cls field key members).result = .ok [.merge key members] := by
  let parts := members.toList.map fun entry => Part.own [keepingEdit entry.1 entry.2]
  have steps : ∀ entry ∈ members.toList, (part cx below cls field entry.1 entry.2).result =
      .ok (.own [keepingEdit entry.1 entry.2]) := fun entry mem =>
    result_part_of_settled plain keeps settled (Dict.mem_toList.mp mem)
  have assembled : (assemble cx cls field parts).result = .ok members := by
    rw [assemble, plain, Part.flatMap_ownEdits_own,
      Edit.build_entries key_keepingEdit written_keepingEdit]
    rfl
  rw [result_fieldStep, result_conditions_of_not_id notId, Except.ok_bind,
    Except.mapM_eq_ok_map steps, Except.ok_bind, assembled, Except.ok_bind, fieldEdits,
    Part.flatMap_dottedEdits_own, outputKey_of_not_id notId]
  rfl

end Steps

/-! ### Levels -/

/-- Whatever is lowered below, settled objects are kept. -/
theorem belowAt_keeps (cx : Context) {cls : String}
    (plain : ∀ field, cx.schema.reference? cls field = none) (levels : Nat) :
    (belowAt cx levels).Keeps cls levels := by
  induction levels with
  | zero => exact Below.keeps_zero cls _
  | succ levels ih =>
    constructor
    · intro filter settled
      exact result_filterStep_of_settled ih settled
    · intro field key operands notId settled
      exact result_fieldStep_of_settled (plain field) notId ih settled key

/-- **Settled filters.** On a class without references a settled filter is its own query. -/
theorem lower_of_settled {cx : Context} {cls : String}
    (plain : ∀ field, cx.schema.reference? cls field = none) {filter : Object}
    (settled : Settled cls cx.limit .filter filter) :
    (lower cx cls (.obj filter)).result = .ok (.obj filter) := by
  have kept : (filterAt cx cx.limit cls filter).result = .ok filter :=
    (belowAt_keeps cx plain cx.limit).filter filter settled
  rw [result_lower_obj, kept, Except.map_ok]

end Lowering

end FilterQuery
