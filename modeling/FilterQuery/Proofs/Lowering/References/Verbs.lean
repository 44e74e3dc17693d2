import FilterQuery.Proofs.Lowering.Edits
import FilterQuery.Proofs.Lowering.Pairs
import FilterQuery.Proofs.Lowering.References.Query

/-!
# The verbs of a reference

The verbs `have` and `haveNot` do not stand in queries. Each becomes the operator of its side with
a subquery, and the filter of the verb becomes the query in it (`Expanded`).

The shape of an operand is looked at before the name of its condition, though. A filter on the
fields `key` and `value` may have the shape of a pair, and then it is lowered as one: the verb goes
to a dotted path, and the filter is not lowered at all. So the verbs are expanded exactly if none of
their filters is a pair (`lower_verbs_iff`, `lower_keyed_pair`).
-/

namespace FilterQuery

namespace Lowering

/-- **Expansion.** No verb stands under the field or under its dotted paths. Where neither the
operator of a side nor the verb `exists` is given, the verb of the side has become a subquery with
the query of its filter. -/
structure Expanded (alone : Json → Except LoweringError Json) (field : String) (reference : Field)
    (conditions query : Object) : Prop where
  /-- The verbs are gone. -/
  gone : ∀ (side : Side) key members, (key = field ∨ ∃ path, key = field ++ "." ++ path) →
    query.get? key = some (.obj members) → members.get? side.verb.name = none
  /-- The queries of their filters are there. -/
  subquery : ∀ (side : Side) filter, conditions.get? side.verb.name = some filter →
    conditions.get? side.operator.name = none →
    conditions.get? RelationVerb.presence.name = none →
    ∃ inner members, alone filter = .ok inner ∧ query.get? field = some (.obj members) ∧
      members.get? side.operator.target = some (Lowering.subquery inner reference.targetClass)

section Verbs

variable {cx : Context} {below : Below} {cls field key : String} {reference : Field}
  {nested : Json → Json} {conditions query : Object} {side : Side}

/-- No verb is a member of the query of a reference. -/
theorem ReferenceQuery.get?_verb (members : ReferenceQuery reference nested conditions query)
    (side : Side) : query.get? side.verb.name = none :=
  members.other _ side.verb_name_ne_target side.verb_name_ne_branch

/-- Without the operator and the verb `exists`, the filter of a verb is that of the subquery. -/
theorem ReferenceQuery.get?_of_verb (members : ReferenceQuery reference nested conditions query)
    {filter : Json} (given : conditions.get? side.verb.name = some filter)
    (noOperator : conditions.get? side.operator.name = none)
    (absent : conditions.get? RelationVerb.presence.name = none) :
    query.get? side.operator.target =
      some (Lowering.subquery (nested filter) reference.targetClass) := by
  rw [members.subquery, Side.subquery?_of_flag?_eq_none (side.flag?_of_absent absent),
    Side.explicit?, noOperator, given]
  rfl

/-- The verb of a filter that is a pair stands under the dotted path of the pair. -/
theorem holds_verb_of_pair (named : field ≠ "") {filter : Json} {pair : PathPair}
    (given : conditions.get? side.verb.name = some filter)
    (is : (Operand.ofJson filter).pair? = some pair) {edits : List Edit}
    (h : (fieldStep cx below cls field key conditions).result = .ok edits) :
    Edit.Holds (Edit.build edits) (field ++ "." ++ pair.path) side.verb.name pair.value := by
  have under : pairUnder? field (.ofJson filter) = some pair :=
    (pairUnder?_of_ne named _).trans is
  have mem : .merge (field ++ "." ++ pair.path) (.singleton side.verb.name pair.value) ∈
      pathEdits field conditions := by
    rw [mem_pathEdits, ← side.targetKey_verb_name]
    exact ⟨side.verb.name, filter, pair, given, under, rfl⟩
  obtain ⟨-, rfl⟩ | ⟨none, -⟩ := edits_of_fieldStep h
  · have puts : (Dict.singleton side.verb.name pair.value).get? side.verb.name =
        some pair.value := by
      rw [Dict.get?_singleton, if_pos rfl]
    refine Edit.holds_build_of_merges mem puts fun edit mem own => ?_
    obtain ⟨name, operand, pair', given', under', rfl⟩ := mem_pathEdits.mp mem
    refine ⟨_, congrArg (Edit.merge · _) own, fun value member => ?_⟩
    rw [Dict.get?_singleton] at member
    split at member
    · next target =>
      -- Only the verb itself is lowered to the verb.
      obtain rfl : side.verb.name = name := by
        rcases isOperator : Operator.ofName? name with _ | operator
        · rwa [targetKey, isOperator] at target
        · rw [targetKey, isOperator] at target
          exact absurd target (side.verb_name_ne_target operator)
      cases given.symm.trans given'
      cases under.symm.trans under'
      exact (Option.some.inj member).symm
    · cases member
  · rw [none] at mem
    cases mem

end Verbs

/-- **Verbs.** A reference where no other operand is a pair is lowered to a query without verbs, in
which their filters have become subqueries, exactly if none of the filters is a pair itself. -/
theorem lower_verbs_iff (schema : Schema) (codec : Codec) (options : Options) {cls field : String}
    {reference : Field} {conditions : Object} (known : schema.field? cls field = some reference)
    (refers : reference.isReference = true) (named : field ≠ "") (notId : field ≠ idField)
    (noName : Combinator.ofName? field = none)
    (others : ∀ name operand, conditions.get? name = some operand →
      (∀ side : Side, name ≠ side.verb.name) → (Operand.ofJson operand).pair? = none) :
    let rest : Options := { options with maxDepth := options.maxDepth - 2 }
    let alone (filter : Json) := (lowerFor (lower (.of schema codec rest)) reference filter).result
    ∀ output, (lower (.of schema codec options) cls
        (.obj (.singleton field (.obj conditions)))).result = .ok output →
      ∃ query : Object, output = .obj query ∧
        (Expanded alone field reference conditions query ↔
          ∀ (side : Side) filter, conditions.get? side.verb.name = some filter →
            (Operand.ofJson filter).pair? = none) := by
  intro rest alone output h
  have found : (Context.of schema codec options).schema.reference? cls field = some reference :=
    Schema.reference?_of_field? known refers
  obtain ⟨levels, enough⟩ := two_le_of_lower_field noName h
  have whole := h
  rw [result_lower_field noName enough] at whole
  obtain ⟨edits, step, rfl⟩ := Except.map_eq_ok_iff.mp whole
  refine ⟨_, rfl, fun expanded side filter given => ?_, fun noPair => ?_⟩
  · rcases is : (Operand.ofJson filter).pair? with _ | pair
    · rfl
    · obtain ⟨members, there, verb⟩ := holds_verb_of_pair named given is step
      rw [expanded.gone side _ members (.inr ⟨pair.path, rfl⟩) there] at verb
      cases verb
  · have unpaired : Unpaired conditions := by
      intro name operand given
      by_cases verb : ∃ side : Side, name = side.verb.name
      · obtain ⟨side, rfl⟩ := verb
        exact noPair side operand given
      · exact others name operand given fun side eq => verb ⟨side, eq⟩
    obtain ⟨levels, nested, query, enough, nests, members, eq⟩ :=
      exists_referenceQuery_of_result_lower found notId noName unpaired h
    rw [Json.obj.inj eq]
    constructor
    · intro side key object place there
      rw [Dict.get?_singleton] at there
      split at there
      · cases there
        exact members.get?_verb side
      · cases there
    · intro side filter given noOperator absent
      refine ⟨nested filter, query, ?_, ?_, members.get?_of_verb given noOperator absent⟩
      · exact (nestedResult_of_maxDepth schema codec enough reference filter).symm.trans
          (nests side.verb.name filter ⟨side, .inl rfl⟩ given)
      · rw [Dict.get?_singleton, if_pos rfl]

/-! ### Tasks with a key -/

/-- Asks for projects with a task that has a key and the value `open`. -/
def keyed (key : Json) : Object :=
  .singleton "have" (.obj (.ofList [("key", key), ("value", .str "open")]))

/-- A condition on the key leaves the filter as it is, and the verb becomes a subquery. -/
theorem lower_keyed_object :
    let conditions := keyed (.obj (.singleton "equalTo" (.str "status")))
    let reference : Field := .ofType .relation (some "Task")
    let alone (filter : Json) :=
      (lowerFor (lower (.of projects .relay { maxDepth := 2 })) reference filter).result
    projects.field? "Project" "tasks" = some reference ∧
      ∃ query : Object, (lower (.of projects .relay { maxDepth := 4 }) "Project"
          (.obj (.singleton "tasks" (.obj conditions)))).result = .ok (.obj query) ∧
        Expanded alone "tasks" reference conditions query := by
  intro conditions reference alone
  have known : projects.field? "Project" "tasks" = some reference := rfl
  let inner : Object := .ofList [("className", .str "Task"),
    ("where", .obj (.ofList [("key", .obj (.singleton "$eq" (.str "status"))),
      ("value", .str "open")]))]
  have whole : (lower (.of projects .relay { maxDepth := 4 }) "Project"
      (.obj (.singleton "tasks" (.obj conditions)))).result =
        .ok (.obj (.singleton "tasks" (.obj (.singleton "$inQuery" (.obj inner))))) := rfl
  have unpaired : Unpaired conditions := by decide
  obtain ⟨_, ⟨⟩, expanded⟩ := lower_verbs_iff projects .relay { maxDepth := 4 } known rfl
    (by decide) (by decide) rfl (fun name operand given _ => unpaired name operand given) _ whole
  exact ⟨known, _, whole, expanded.mpr fun side filter given => unpaired _ filter given⟩

/-- With a literal as key the filter is a pair, and the verb goes to the dotted path. -/
theorem lower_keyed_pair :
    let conditions := keyed (.str "status")
    let reference : Field := .ofType .relation (some "Task")
    let alone (filter : Json) :=
      (lowerFor (lower (.of projects .relay { maxDepth := 2 })) reference filter).result
    projects.field? "Project" "tasks" = some reference ∧
      (∀ name operand, conditions.get? name = some operand → name = Side.matching.verb.name) ∧
      ∃ query : Object, (lower (.of projects .relay { maxDepth := 4 }) "Project"
          (.obj (.singleton "tasks" (.obj conditions)))).result = .ok (.obj query) ∧
        ¬ Expanded alone "tasks" reference conditions query := by
  intro conditions reference alone
  let query : Object := .singleton "tasks.status" (.obj (.singleton "have" (.str "open")))
  refine ⟨rfl, fun name operand given => ?_, query, rfl, fun expanded => ?_⟩
  · have given' := given
    rw [show conditions = keyed _ from rfl, keyed, Dict.get?_singleton] at given'
    split at given'
    · next verb => exact verb
    · cases given'
  · have gone := expanded.gone .matching "tasks.status" (.singleton "have" (.str "open"))
      (.inr ⟨"status", rfl⟩) rfl
    cases gone

end Lowering

end FilterQuery
