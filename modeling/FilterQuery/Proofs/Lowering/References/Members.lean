import FilterQuery.Proofs.Dict
import FilterQuery.Proofs.Lowering.Edits
import FilterQuery.Proofs.Lowering.References.Parts

/-!
# Members of a reference

The conditions of a field that refers to other objects become an object whose members are given
outright, one equation for each (`ReferenceQuery`).

Conditions are lowered in the order of their names, and what is written last stays, so under each
key the greatest name decides among those that write it. The operators of subqueries are the only
keys that two names write: a verb, and the operator itself (`get?_bareObject_side`). The verb
`exists` is added when everything else is there (`exists_result_assemble`).
-/

namespace FilterQuery

namespace Lowering

/-! ### Members -/

section Members

variable (reference : Field) (nested : Json → Json) (conditions : Object)

/-- The flag of the verb `exists`, if the field is a relation and the flag is for the side. -/
def Side.flag? (side : Side) : Option Json :=
  (conditions.get? RelationVerb.presence.name).filter fun flag =>
    reference.type = .relation ∧ ofFlag flag = side

/-- Is there a filter under the branch of the side? -/
def Side.hasFilter (side : Side) : Bool := (conditions.get? side.branch).any Json.isObject

/-- The subquery that is asked for on a side: the operator itself comes before the filter of the
verb. -/
def Side.explicit? (side : Side) : Option Json :=
  (conditions.get? side.operator.name).or
    ((conditions.get? side.verb.name).map fun filter =>
      subquery (nested filter) reference.targetClass)

/-- **Subqueries.** What stands under the operator of a side: a subquery on all objects, if there is
a flag for the side that finds no filter to join, and otherwise the one that is asked for. -/
def Side.subquery? (side : Side) : Option Json :=
  if (side.flag? reference conditions).isSome ∧ ¬ side.hasFilter conditions then
    some (allReferred reference)
  else side.explicit? reference nested conditions

/-- **Branches.** What stands under the branch of a side: the query of the filter, which a flag for
the side joins as a condition on local ids. -/
def Side.branch? (side : Side) : Option Json :=
  (conditions.get? side.branch).map fun filter =>
    match side.flag? reference conditions, nested filter with
    | some flag, .obj query =>
      .obj (Object.merge query objectIdKey (.singleton Operator.presence.target flag))
    | _, query => query

/-- **Queries of references.** The object that the conditions of a field become that refers to
other objects, by its members. The function gives the query of each nested filter. -/
structure ReferenceQuery (query : Object) : Prop where
  /-- The operator of a side has a subquery. -/
  subquery : ∀ side : Side,
    query.get? side.operator.target = side.subquery? reference nested conditions
  /-- The branch of a side has a filter. -/
  branch : ∀ side : Side, query.get? side.branch = side.branch? reference nested conditions
  /-- The verb `exists` stays a condition on a pointer. -/
  presence : query.get? Operator.presence.target =
    if reference.type = .relation then none else conditions.get? RelationVerb.presence.name
  /-- Any other operator keeps its operand. -/
  operator : ∀ operator : Operator, operator ≠ .presence →
    (∀ side : Side, operator ≠ side.operator) →
      query.get? operator.target = conditions.get? operator.name
  /-- There are no other members. -/
  other : ∀ key, (∀ operator : Operator, key ≠ operator.target) →
    (∀ side : Side, key ≠ side.branch) → query.get? key = none

/-- The edits of a condition of a reference. -/
def partEdits (entry : String × Json) : List Edit :=
  (partOf reference entry.1 entry.2 (nested entry.2)).ownEdits

/-- The object of a reference before the verb `exists` is added. -/
def bareObject : Object := Edit.build (conditions.toList.flatMap (partEdits reference nested))

theorem partEdits_verb (side : Side) (operand : Json) :
    partEdits reference nested (side.verb.name, operand) =
      [.set side.operator.target (subquery (nested operand) reference.targetClass)] :=
  congrArg Part.ownEdits (partOf_verb ..)

theorem partEdits_operator {operator : Operator} (ne : operator ≠ .presence) (operand : Json) :
    partEdits reference nested (operator.name, operand) = [.set operator.target operand] :=
  congrArg Part.ownEdits (partOf_operator reference ne ..)

theorem partEdits_branch (side : Side) (operand : Json) :
    partEdits reference nested (side.branch, operand) = [.set side.branch (nested operand)] :=
  congrArg Part.ownEdits (partOf_branch ..)

theorem get?_bareObject_side (side : Side) :
    (bareObject reference nested conditions).get? side.operator.target =
      side.explicit? reference nested conditions := by
  have two := Edit.get?_build_of_two (d := conditions) side.verb_name_lt
    (partEdits_verb reference nested side)
    (partEdits_operator reference nested side.operator_ne_presence)
    fun name operand edit mem eq => by
      rcases key_of_partOf mem with ⟨other, rfl, key⟩ | ⟨operator, -, rfl, key⟩ | ⟨other, -, key⟩
      · rw [Side.target_operator_injective (key.symm.trans eq)]
        exact .inl rfl
      · rw [Operator.target_injective (key.symm.trans eq)]
        exact .inr rfl
      · exact absurd (key.symm.trans eq) (other.branch_ne_target _)
  exact two.trans (congrArg (Option.or · _) Option.map_id')

theorem get?_bareObject_branch (side : Side) :
    (bareObject reference nested conditions).get? side.branch =
      (conditions.get? side.branch).map nested := by
  refine Edit.get?_build_of_only (partEdits_branch reference nested side)
    fun name operand edit mem eq => ?_
  rcases key_of_partOf mem with ⟨other, rfl, key⟩ | ⟨operator, -, rfl, key⟩ | ⟨other, rfl, key⟩
  · exact absurd (eq.symm.trans key) (side.branch_ne_target _)
  · exact absurd (eq.symm.trans key) (side.branch_ne_target _)
  · exact key.symm.trans eq

theorem get?_bareObject_operator {operator : Operator} (ne : operator ≠ .presence)
    (noSide : ∀ side : Side, operator ≠ side.operator) :
    (bareObject reference nested conditions).get? operator.target =
      conditions.get? operator.name := by
  have only := Edit.get?_build_of_only (d := conditions) (partEdits_operator reference nested ne)
    fun name operand edit mem eq => by
      rcases key_of_partOf mem with ⟨side, rfl, key⟩ | ⟨other, -, rfl, key⟩ | ⟨side, rfl, key⟩
      · exact absurd (Operator.target_injective (eq.symm.trans key)) (noSide side)
      · rw [Operator.target_injective (key.symm.trans eq)]
      · exact absurd (key.symm.trans eq) (side.branch_ne_target _)
  exact only.trans Option.map_id'

theorem get?_bareObject_eq_none {key : String}
    (noTarget : ∀ operator : Operator, operator ≠ .presence → key ≠ operator.target)
    (noBranch : ∀ side : Side, key ≠ side.branch) :
    (bareObject reference nested conditions).get? key = none := by
  refine Edit.get?_build_eq_none fun name operand _ edit mem eq => ?_
  rcases key_of_partOf mem with ⟨side, -, own⟩ | ⟨operator, ne, -, own⟩ | ⟨side, -, own⟩
  · exact noTarget side.operator side.operator_ne_presence (eq.symm.trans own)
  · exact noTarget operator ne (eq.symm.trans own)
  · exact noBranch side (eq.symm.trans own)

theorem get?_bareObject_presence :
    (bareObject reference nested conditions).get? Operator.presence.target = none :=
  get?_bareObject_eq_none reference nested conditions
    (fun _ ne eq => ne (Operator.target_injective eq.symm))
    fun side => (side.branch_ne_target _).symm

end Members

/-! ### Presence -/

section Presence

variable {cx : Context} {cls field : String} {reference : Field} {nested : Json → Json}
  {conditions : Object} {side : Side} {flag : Json}

/-- A side that the verb `exists` is not for has what the other conditions give. -/
theorem Side.subquery?_of_flag?_eq_none (noFlag : side.flag? reference conditions = none) :
    side.subquery? reference nested conditions = side.explicit? reference nested conditions := by
  rw [Side.subquery?, noFlag]
  exact if_neg fun h => absurd h.1 Bool.false_ne_true

/-- A flag that joins the filter under its branch makes no subquery. -/
theorem Side.subquery?_of_hasFilter (filter : side.hasFilter conditions = true) :
    side.subquery? reference nested conditions = side.explicit? reference nested conditions := by
  rw [Side.subquery?]
  exact if_neg fun h => h.2 filter

theorem Side.branch?_of_flag?_eq_none (noFlag : side.flag? reference conditions = none) :
    side.branch? reference nested conditions = (conditions.get? side.branch).map nested := by
  rw [Side.branch?, noFlag]

theorem Side.flag?_of_absent (side : Side)
    (absent : conditions.get? RelationVerb.presence.name = none) :
    side.flag? reference conditions = none := by
  rw [Side.flag?, absent]
  rfl

theorem Side.flag?_of_ne_relation (pointer : reference.type ≠ .relation) :
    side.flag? reference conditions = none := by
  refine Option.filter_eq_none_iff.mpr fun flag _ => ?_
  simp [pointer]

theorem Side.flag?_ofFlag (relation : reference.type = .relation)
    (given : conditions.get? RelationVerb.presence.name = some flag) :
    (ofFlag flag).flag? reference conditions = some flag := by
  rw [Side.flag?, given]
  simp [relation]

theorem Side.flag?_of_ne_ofFlag (given : conditions.get? RelationVerb.presence.name = some flag)
    (ne : side ≠ ofFlag flag) : side.flag? reference conditions = none := by
  rw [Side.flag?, given]
  simp [Ne.symm ne]

/-- Under a relation, a flag joins the filter under its branch, or makes a subquery. -/
theorem applyPresence_of_relation (relation : reference.type = .relation) (field : String)
    (flag : Json) (lowered : Object) :
    applyPresence field reference flag lowered =
      match lowered.get? (Side.ofFlag flag).branch with
      | some (.obj filter) => do
        Run.emit (.presenceMerged field (Side.ofFlag flag).branch)
        return lowered.insert (Side.ofFlag flag).branch
          (.obj (Object.merge filter objectIdKey (.singleton Operator.presence.target flag)))
      | _ => pure (lowered.insert (Side.ofFlag flag).operator.target (allReferred reference)) := by
  rw [applyPresence, if_neg (not_not_intro relation), Side.ofFlag]
  cases flag.isTruthy <;> rfl

/-- The verb `exists` changes nothing but the members that it is for. -/
theorem referenceQuery_of_rest {query : Object}
    (subquery : ∀ side : Side, query.get? side.operator.target =
      side.subquery? reference nested conditions)
    (branch : ∀ side : Side, query.get? side.branch = side.branch? reference nested conditions)
    (presence : query.get? Operator.presence.target =
      if reference.type = .relation then none else conditions.get? RelationVerb.presence.name)
    (rest : ∀ key, (∀ side : Side, key ≠ side.operator.target) →
      (∀ side : Side, key ≠ side.branch) → key ≠ Operator.presence.target →
        query.get? key = (bareObject reference nested conditions).get? key) :
    ReferenceQuery reference nested conditions query where
  subquery := subquery
  branch := branch
  presence := presence
  operator operator ne noSide := by
    rw [← get?_bareObject_operator reference nested conditions ne noSide]
    exact rest _ (fun side eq => noSide side (Operator.target_injective eq))
      (fun side => (side.branch_ne_target operator).symm)
      fun eq => ne (Operator.target_injective eq)
  other key noTarget noBranch := by
    rw [rest key (fun side => noTarget side.operator) noBranch (noTarget .presence)]
    exact get?_bareObject_eq_none reference nested conditions (fun operator _ => noTarget operator)
      noBranch

/-- Without the verb `exists` the other conditions give the query. -/
theorem referenceQuery_of_absent (absent : conditions.get? RelationVerb.presence.name = none) :
    ReferenceQuery reference nested conditions (bareObject reference nested conditions) := by
  refine referenceQuery_of_rest ?_ ?_ ?_ fun _ _ _ _ => rfl
  · intro side
    rw [get?_bareObject_side, Side.subquery?_of_flag?_eq_none (side.flag?_of_absent absent)]
  · intro side
    rw [get?_bareObject_branch, Side.branch?_of_flag?_eq_none (side.flag?_of_absent absent)]
  · rw [absent, ite_self, get?_bareObject_presence]

/-- On a pointer the flag is a condition of its own. -/
theorem referenceQuery_of_pointer (pointer : reference.type ≠ .relation)
    (given : conditions.get? RelationVerb.presence.name = some flag) :
    ReferenceQuery reference nested conditions
      ((bareObject reference nested conditions).insert Operator.presence.target flag) := by
  have noFlag (side : Side) : side.flag? reference conditions = none :=
    Side.flag?_of_ne_relation pointer
  refine referenceQuery_of_rest (fun side => ?_) (fun side => ?_) ?_ fun key _ _ ne => ?_
  · rw [Dict.get?_insert, if_neg side.target_operator_ne_presence, get?_bareObject_side,
      Side.subquery?_of_flag?_eq_none (noFlag side)]
  · rw [Dict.get?_insert, if_neg (side.branch_ne_target _), get?_bareObject_branch,
      Side.branch?_of_flag?_eq_none (noFlag side)]
  · rw [Dict.get?_insert, if_pos rfl, if_neg pointer, given]
  · rw [Dict.get?_insert, if_neg ne]

/-- On a relation the flag joins the filter under its branch. -/
theorem referenceQuery_of_joined (relation : reference.type = .relation)
    (given : conditions.get? RelationVerb.presence.name = some flag) {query : Object}
    (joins : (bareObject reference nested conditions).get? (Side.ofFlag flag).branch =
      some (.obj query)) (filter : (Side.ofFlag flag).hasFilter conditions = true) :
    ReferenceQuery reference nested conditions
      ((bareObject reference nested conditions).insert (Side.ofFlag flag).branch
        (.obj (Object.merge query objectIdKey (.singleton Operator.presence.target flag)))) := by
  refine referenceQuery_of_rest (fun side => ?_) (fun side => ?_) ?_ fun key _ ne _ => ?_
  · rw [Dict.get?_insert, if_neg (Side.branch_ne_target _ _).symm, get?_bareObject_side]
    by_cases own : side = Side.ofFlag flag
    · rw [own, Side.subquery?_of_hasFilter filter]
    · rw [Side.subquery?_of_flag?_eq_none (Side.flag?_of_ne_ofFlag given own)]
  · rw [Dict.get?_insert]
    by_cases own : side = Side.ofFlag flag
    · rw [own, if_pos rfl, Side.branch?, Side.flag?_ofFlag relation given]
      rw [get?_bareObject_branch] at joins
      obtain ⟨source, found, becomes⟩ := Option.map_eq_some_iff.mp joins
      rw [found, Option.map_some, becomes]
    · rw [if_neg fun eq => own (Side.branch_injective eq), get?_bareObject_branch,
        Side.branch?_of_flag?_eq_none (Side.flag?_of_ne_ofFlag given own)]
  · rw [Dict.get?_insert, if_neg (Side.branch_ne_target _ _).symm, if_pos relation,
      get?_bareObject_presence]
  · rw [Dict.get?_insert, if_neg (ne _)]

/-- On a relation a flag that finds no filter makes a subquery. -/
theorem referenceQuery_of_alone (relation : reference.type = .relation)
    (given : conditions.get? RelationVerb.presence.name = some flag)
    (noFilter : (Side.ofFlag flag).hasFilter conditions = false)
    (noObject : ∀ filter, conditions.get? (Side.ofFlag flag).branch = some filter →
      (nested filter).isObject = false) :
    ReferenceQuery reference nested conditions
      ((bareObject reference nested conditions).insert (Side.ofFlag flag).operator.target
        (allReferred reference)) := by
  refine referenceQuery_of_rest (fun side => ?_) (fun side => ?_) ?_ fun key ne _ _ => ?_
  · rw [Dict.get?_insert]
    by_cases own : side = Side.ofFlag flag
    · rw [own, if_pos rfl, Side.subquery?, Side.flag?_ofFlag relation given, noFilter]
      rfl
    · rw [if_neg fun eq => own (Side.target_operator_injective eq), get?_bareObject_side,
        Side.subquery?_of_flag?_eq_none (Side.flag?_of_ne_ofFlag given own)]
  · rw [Dict.get?_insert, if_neg (side.branch_ne_target _), get?_bareObject_branch]
    by_cases own : side = Side.ofFlag flag
    · rw [own, Side.branch?]
      refine Option.map_congr fun filter found => ?_
      have keeps := noObject filter found
      split
      · next query becomes =>
        rw [becomes] at keeps
        cases keeps
      · rfl
    · rw [Side.branch?_of_flag?_eq_none (Side.flag?_of_ne_ofFlag given own)]
  · rw [Dict.get?_insert, if_neg (Side.target_operator_ne_presence _).symm, if_pos relation,
      get?_bareObject_presence]
  · rw [Dict.get?_insert, if_neg (ne _)]

/-- The parts of a reference are put together to its query. -/
theorem exists_result_assemble (known : cx.schema.reference? cls field = some reference)
    (kept : ∀ (side : Side) filter, conditions.get? side.branch = some filter →
      (nested filter).isObject = filter.isObject) :
    ∃ query, (assemble cx cls field (conditions.toList.map fun entry =>
        partOf reference entry.1 entry.2 (nested entry.2))).result = .ok query ∧
      ReferenceQuery reference nested conditions query := by
  have own : (conditions.toList.map fun entry =>
      partOf reference entry.1 entry.2 (nested entry.2)).flatMap Part.ownEdits =
        conditions.toList.flatMap (partEdits reference nested) := List.flatMap_map ..
  have held : (conditions.toList.map fun entry =>
      partOf reference entry.1 entry.2 (nested entry.2)).findSome? Part.presence? =
        conditions.get? RelationVerb.presence.name := by
    rw [List.findSome?_map, ← Dict.findSome?_toList]
    exact congrArg (List.findSome? · _) (funext fun entry => presence?_partOf ..)
  rw [assemble, known, own, held]
  rcases given : conditions.get? RelationVerb.presence.name with _ | flag
  · exact ⟨_, rfl, referenceQuery_of_absent given⟩
  · dsimp only
    by_cases relation : reference.type = .relation
    · rw [applyPresence_of_relation relation]
      have branch := get?_bareObject_branch reference nested conditions (Side.ofFlag flag)
      split
      · next query joins =>
        obtain ⟨filter, found, becomes⟩ := Option.map_eq_some_iff.mp (branch.symm.trans joins)
        have object := kept _ filter found
        rw [becomes] at object
        refine ⟨_, rfl, referenceQuery_of_joined relation given joins ?_⟩
        rw [Side.hasFilter, found]
        exact object.symm
      · next noQuery =>
        have noObject : ∀ filter, conditions.get? (Side.ofFlag flag).branch = some filter →
            (nested filter).isObject = false := by
          intro filter found
          rw [found] at branch
          cases becomes : nested filter with
          | obj query => exact absurd (branch.trans (congrArg some becomes)) (noQuery query)
          | _ => rfl
        refine ⟨_, rfl, referenceQuery_of_alone relation given ?_ noObject⟩
        rcases found : conditions.get? (Side.ofFlag flag).branch with _ | filter
        · rw [Side.hasFilter, found]
          rfl
        · rw [Side.hasFilter, found]
          exact (kept _ filter found).symm.trans (noObject filter found)
    · rw [applyPresence, if_pos relation]
      exact ⟨_, rfl, referenceQuery_of_pointer relation given⟩

end Presence

end Lowering

end FilterQuery
