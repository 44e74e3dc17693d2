import FilterQuery.Proofs.Lowering.References.Query

/-!
# The verb `exists` beside other conditions

On a relation the verb `exists` joins the filter under the branch that its flag selects, or makes a
subquery on all objects if there is no such filter. Whatever already stands where it is written
gives way. So the verb keeps what the other conditions ask for (`Keeps`) exactly if the query that
they have without it leaves room (`HasRoom`): the filter under the branch has no literal and no
other flag as its condition on local ids, and where there is no filter, no other condition has a
subquery on the same side (`lower_presence_iff`).

The verbs with a filter do not leave that room (`lower_openTasks_presence`).
-/

namespace FilterQuery

namespace Lowering

/-! ### What is kept -/

/-- The conditions on local ids that a filter has; a literal is the condition of being equal to
it. -/
def idConditions (filter : Object) : Object :=
  match filter.get? objectIdKey with
  | some (.obj conditions) => conditions
  | some literal => .singleton Operator.equalTo.target literal
  | none => ∅

/-- **Keeping conditions.** The second query has every member of the first. The filter under the
branch of the side, if there is one, only gains the flag, as a condition on local ids beside those
that it has. -/
structure Keeps (side : Side) (flag : Json) (query query' : Object) : Prop where
  /-- The members beside the branch have the same values. -/
  members : ∀ key, key ≠ side.branch → ∀ value, query.get? key = some value →
    query'.get? key = some value
  /-- The filter under the branch gains the flag, and loses nothing. -/
  filter : ∀ filter, query.get? side.branch = some (.obj filter) →
    ∃ filter', query'.get? side.branch = some (.obj filter') ∧
      (∀ key, key ≠ objectIdKey → filter'.get? key = filter.get? key) ∧
      filter'.get? objectIdKey =
        some (.obj ((idConditions filter).insert Operator.presence.target flag)) ∧
      ∀ other, (idConditions filter).get? Operator.presence.target = some other → other = flag

/-- **Room.** Nothing else stands where the verb `exists` is written. -/
structure HasRoom (reference : Field) (flag : Json) (query : Object) : Prop where
  /-- The filter that the flag joins has neither a literal nor another flag for local ids. -/
  joined : ∀ filter, query.get? (Side.ofFlag flag).branch = some (.obj filter) →
    (∀ value, filter.get? objectIdKey = some value → value.isObject = true) ∧
      ∀ other, (idConditions filter).get? Operator.presence.target = some other → other = flag
  /-- If there is none, there is no subquery of another condition on this side. -/
  alone : (∀ filter, query.get? (Side.ofFlag flag).branch ≠ some (.obj filter)) →
    ∀ value, query.get? (Side.ofFlag flag).operator.target = some value →
      value = allReferred reference

/-- Joining a flag keeps the conditions on local ids exactly if no literal stands there. -/
theorem get?_merge_objectIdKey_iff (filter : Object) (flag : Json) :
    (Object.merge filter objectIdKey (.singleton Operator.presence.target flag)).get? objectIdKey =
        some (.obj ((idConditions filter).insert Operator.presence.target flag)) ↔
      ∀ value, filter.get? objectIdKey = some value → value.isObject = true := by
  have union (conditions : Object) : conditions ∪ .singleton Operator.presence.target flag =
      conditions.insert Operator.presence.target flag := Dict.ext_get? fun key => by
    rw [Dict.get?_union, Dict.get?_singleton, Dict.get?_insert]
    split <;> rfl
  rw [Object.get?_merge_self, union, idConditions]
  rcases there : filter.get? objectIdKey with _ | value
  · exact iff_of_true rfl nofun
  · simp only [Option.bind_some, Option.some.injEq, forall_eq']
    cases value with
    | obj conditions => exact iff_of_true rfl rfl
    | _ =>
      refine iff_of_false (fun eq => ?_) Bool.false_ne_true
      -- The literal is a condition that the merged object does not have.
      have lost := congrArg (Dict.get? · Operator.equalTo.target) (Json.obj.inj eq)
      have ne : Operator.equalTo.target ≠ Operator.presence.target := by decide
      simp only [Json.members?, Option.getD_none, Dict.get?_insert, if_neg ne, Dict.get?_empty,
        Dict.get?_singleton, if_pos] at lost
      cases lost

/-! ### Adding the verb -/

/-- The operand of the verb `exists` is no filter. -/
theorem TakesFilter.ne_presence {name : String} (takes : TakesFilter name) :
    name ≠ RelationVerb.presence.name := by
  obtain ⟨side, rfl | rfl⟩ := takes <;> cases side <;> decide

theorem operator_name_ne_presence {operator : Operator} (ne : operator ≠ .presence) :
    operator.name ≠ RelationVerb.presence.name := by
  intro eq
  have verb := ofName?_operator_name ne
  rw [eq, RelationVerb.ofName?_name] at verb
  cases verb

section Adding

variable {reference : Field} {nested : Json → Json} {conditions query query' : Object}
  {flag : Json} {side : Side}

/-- The conditions with the verb `exists`. -/
def withPresence (conditions : Object) (flag : Json) : Object :=
  conditions.insert RelationVerb.presence.name flag

theorem get?_withPresence_self (conditions : Object) (flag : Json) :
    (withPresence conditions flag).get? RelationVerb.presence.name = some flag := by
  rw [withPresence, Dict.get?_insert, if_pos rfl]

/-- The other conditions stay. -/
theorem get?_withPresence_of_ne (conditions : Object) (flag : Json) {name : String}
    (ne : name ≠ RelationVerb.presence.name) :
    (withPresence conditions flag).get? name = conditions.get? name := by
  rw [withPresence, Dict.get?_insert, if_neg ne]

theorem get?_withPresence_branch (conditions : Object) (flag : Json) (side : Side) :
    (withPresence conditions flag).get? side.branch = conditions.get? side.branch :=
  get?_withPresence_of_ne conditions flag (TakesFilter.ne_presence ⟨side, .inr rfl⟩)

theorem Side.explicit?_withPresence :
    side.explicit? reference nested (withPresence conditions flag) =
      side.explicit? reference nested conditions := by
  rw [Side.explicit?, Side.explicit?,
    get?_withPresence_of_ne conditions flag (operator_name_ne_presence side.operator_ne_presence),
    get?_withPresence_of_ne conditions flag (TakesFilter.ne_presence ⟨side, .inl rfl⟩)]

/-- Without the verb `exists`, a side has the subquery that is asked for and the query of the filter
under its branch. -/
theorem ReferenceQuery.get?_of_absent
    (members : ReferenceQuery reference nested conditions query)
    (noFlag : side.flag? reference conditions = none) :
    query.get? side.operator.target = side.explicit? reference nested conditions ∧
      query.get? side.branch = (conditions.get? side.branch).map nested := by
  rw [members.subquery, members.branch]
  exact ⟨Side.subquery?_of_flag?_eq_none noFlag, Side.branch?_of_flag?_eq_none noFlag⟩

section Presence

variable (relation : reference.type = .relation)
  (absent : conditions.get? RelationVerb.presence.name = none)
  (members : ReferenceQuery reference nested conditions query)
  (members' : ReferenceQuery reference nested (withPresence conditions flag) query')

include relation absent members members'

/-- The verb changes what stands under the branch and the operator of its side, and nothing else. -/
theorem ReferenceQuery.get?_withPresence {key : String}
    (noBranch : key ≠ (Side.ofFlag flag).branch)
    (noOperator : key ≠ (Side.ofFlag flag).operator.target) :
    query'.get? key = query.get? key := by
  have bare (side : Side) := members.get?_of_absent (side.flag?_of_absent absent)
  have other {side : Side} (ne : side ≠ Side.ofFlag flag) := members'.get?_of_absent
    (Side.flag?_of_ne_ofFlag (get?_withPresence_self conditions flag) ne)
  by_cases target : ∃ operator : Operator, key = operator.target
  · obtain ⟨operator, rfl⟩ := target
    by_cases presence : operator = .presence
    · rw [presence, members.presence, members'.presence, if_pos relation, if_pos relation]
    · by_cases ofSide : ∃ side : Side, operator = side.operator
      · obtain ⟨side, rfl⟩ := ofSide
        have ne : side ≠ Side.ofFlag flag := fun eq => noOperator (eq ▸ rfl)
        rw [(bare side).1, (other ne).1, Side.explicit?_withPresence]
      · have noSide (side : Side) : operator ≠ side.operator := fun eq => ofSide ⟨side, eq⟩
        rw [members.operator operator presence noSide, members'.operator operator presence noSide,
          get?_withPresence_of_ne conditions flag (operator_name_ne_presence presence)]
  · by_cases branch : ∃ side : Side, key = side.branch
    · obtain ⟨side, rfl⟩ := branch
      have ne : side ≠ Side.ofFlag flag := fun eq => noBranch (eq ▸ rfl)
      rw [(bare side).2, (other ne).2, get?_withPresence_branch]
    · have noTarget (operator : Operator) : key ≠ operator.target := fun eq => target ⟨operator, eq⟩
      have noSide (side : Side) : key ≠ side.branch := fun eq => branch ⟨side, eq⟩
      rw [members.other key noTarget noSide, members'.other key noTarget noSide]

/-- Where there is a filter under the branch, the flag joins it and makes no subquery. -/
theorem ReferenceQuery.get?_of_joined
    (kept : ∀ (side : Side) filter, conditions.get? side.branch = some filter →
      (nested filter).isObject = filter.isObject) {filter : Object}
    (there : query.get? (Side.ofFlag flag).branch = some (.obj filter)) :
    query'.get? (Side.ofFlag flag).branch =
        some (.obj (Object.merge filter objectIdKey (.singleton Operator.presence.target flag))) ∧
      query'.get? (Side.ofFlag flag).operator.target =
        query.get? (Side.ofFlag flag).operator.target := by
  have bare := members.get?_of_absent ((Side.ofFlag flag).flag?_of_absent absent)
  obtain ⟨source, found, becomes⟩ := Option.map_eq_some_iff.mp (bare.2.symm.trans there)
  have found' := (get?_withPresence_branch conditions flag _).trans found
  have object : (Side.ofFlag flag).hasFilter (withPresence conditions flag) = true := by
    rw [Side.hasFilter, found', Option.any_some, ← kept _ source found, becomes]
    rfl
  constructor
  · rw [members'.branch, Side.branch?, found', Option.map_some,
      Side.flag?_ofFlag relation (get?_withPresence_self conditions flag), becomes]
  · rw [members'.subquery, Side.subquery?_of_hasFilter object, Side.explicit?_withPresence, bare.1]

/-- Where there is none, the flag makes a subquery on all objects. -/
theorem ReferenceQuery.get?_of_alone
    (kept : ∀ (side : Side) filter, conditions.get? side.branch = some filter →
      (nested filter).isObject = filter.isObject)
    (noFilter : ∀ filter, query.get? (Side.ofFlag flag).branch ≠ some (.obj filter)) :
    query'.get? (Side.ofFlag flag).operator.target = some (allReferred reference) := by
  have bare := members.get?_of_absent ((Side.ofFlag flag).flag?_of_absent absent)
  have none : (Side.ofFlag flag).hasFilter (withPresence conditions flag) = false := by
    rw [Side.hasFilter, get?_withPresence_branch]
    rcases found : conditions.get? (Side.ofFlag flag).branch with _ | source
    · rfl
    · rw [Option.any_some, ← kept _ source found]
      rw [found] at bare
      cases becomes : nested source with
      | obj filter => exact absurd (bare.2.trans (congrArg some becomes)) (noFilter filter)
      | _ => rfl
  rw [members'.subquery, Side.subquery?, none,
    Side.flag?_ofFlag relation (get?_withPresence_self conditions flag)]
  rfl

/-- **Keeping and room.** The verb `exists` keeps the other conditions exactly if there is room for
it. -/
theorem ReferenceQuery.keeps_iff_hasRoom
    (kept : ∀ (side : Side) filter, conditions.get? side.branch = some filter →
      (nested filter).isObject = filter.isObject) :
    Keeps (Side.ofFlag flag) flag query query' ↔ HasRoom reference flag query := by
  have joined {filter : Object}
      (there : query.get? (Side.ofFlag flag).branch = some (.obj filter)) :=
    members.get?_of_joined relation absent members' kept there
  have alone := members.get?_of_alone relation absent members' kept
  constructor
  · intro keeps
    constructor
    · intro filter there
      obtain ⟨filter', there', -, ids, flags⟩ := keeps.filter filter there
      rw [(joined there).1] at there'
      cases there'
      exact ⟨(get?_merge_objectIdKey_iff filter flag).mp ids, flags⟩
    · intro noFilter value there
      have there' := keeps.members _ (Side.branch_ne_target _ _).symm value there
      rw [alone noFilter] at there'
      exact (Option.some.inj there').symm
  · intro room
    constructor
    · intro key ne value there
      by_cases operator : key = (Side.ofFlag flag).operator.target
      · subst operator
        by_cases found : ∃ filter, query.get? (Side.ofFlag flag).branch = some (.obj filter)
        · obtain ⟨filter, found⟩ := found
          rw [(joined found).2, there]
        · have noFilter := fun filter eq => found ⟨filter, eq⟩
          rw [alone noFilter, room.alone noFilter value there]
      · rw [members.get?_withPresence relation absent members' ne operator, there]
    · intro filter there
      obtain ⟨noLiteral, flags⟩ := room.joined filter there
      refine ⟨_, (joined there).1, fun key ne => Object.get?_merge_of_ne filter _ ne, ?_, flags⟩
      exact (get?_merge_objectIdKey_iff filter flag).mpr noLiteral

end Presence

end Adding

/-- Another operand that is no pair leaves conditions without pairs. -/
theorem Unpaired.withPresence {conditions : Object} (unpaired : Unpaired conditions) {flag : Json}
    (noPair : (Operand.ofJson flag).pair? = none) :
    Unpaired (withPresence conditions flag) := by
  intro name operand found
  by_cases presence : name = RelationVerb.presence.name
  · rw [presence, get?_withPresence_self] at found
    exact Option.some.inj found ▸ noPair
  · rw [get?_withPresence_of_ne conditions flag presence] at found
    exact unpaired name operand found

/-- **Presence.** On a relation, conditions that have a query have one with the verb `exists` too,
whatever the flag is. It keeps all that the other conditions ask for exactly if there is room for
the verb: no literal and no other flag stands for local ids in the filter that the flag joins, and
if there is no such filter, no other condition has a subquery on the same side. -/
theorem lower_presence_iff (schema : Schema) (codec : Codec) (options : Options)
    {cls field : String} {reference : Field} {conditions query : Object} {flag : Json}
    (known : schema.field? cls field = some reference) (relation : reference.type = .relation)
    (notId : field ≠ idField) (noName : Combinator.ofName? field = none)
    (unpaired : Unpaired conditions) (absent : conditions.get? RelationVerb.presence.name = none)
    (noPair : (Operand.ofJson flag).pair? = none) :
    let run (conditions : Object) := (lower (.of schema codec options) cls
      (.obj (.singleton field (.obj conditions)))).result
    run conditions = .ok (.obj (.singleton field (.obj query))) →
      ∃ query', run (conditions.insert RelationVerb.presence.name flag) =
          .ok (.obj (.singleton field (.obj query'))) ∧
        (Keeps (Side.ofFlag flag) flag query query' ↔ HasRoom reference flag query) := by
  intro run h
  have refers : reference.isReference = true := by
    rw [Field.isReference, relation]
    rfl
  have found : (Context.of schema codec options).schema.reference? cls field = some reference :=
    Schema.reference?_of_field? known refers
  obtain ⟨levels, nested, query₀, enough, nests, members, eq⟩ :=
    exists_referenceQuery_of_result_lower found notId noName unpaired h
  cases eq
  -- No filter is added, so the queries of the filters are the same.
  have nests' : Nests (nestedResult (.of schema codec options) levels reference)
      (withPresence conditions flag) nested := by
    intro name filter takes there
    rw [get?_withPresence_of_ne conditions flag takes.ne_presence] at there
    exact nests name filter takes there
  obtain ⟨query', h', members'⟩ := exists_result_lower_reference found notId noName
    (unpaired.withPresence noPair) enough nests'
  have kept : ∀ (side : Side) filter, conditions.get? side.branch = some filter →
      (nested filter).isObject = filter.isObject := fun side filter there =>
    isObject_of_lowerFor (result_lowerFor_belowAt_eq_ok_iff.mpr
      (nests side.branch filter ⟨side, .inr rfl⟩ there))
  exact ⟨query', h', members.keeps_iff_hasRoom relation absent members' kept⟩

/-! ### Open tasks -/

/-- A filter that asks for open tasks. -/
def openTasks : Object := .singleton "status" (.obj (.singleton "equalTo" (.str "open")))

/-- The filter on the tasks of a project under its branch leaves room for the verb. -/
theorem lower_openTasks_branch :
    let conditions : Object := .singleton "where" (.obj openTasks)
    let flag : Json := .bool true
    let run (conditions : Object) := (lower (.of projects .relay {}) "Project"
      (.obj (.singleton "tasks" (.obj conditions)))).result
    Unpaired conditions ∧ conditions.get? RelationVerb.presence.name = none ∧
      ∃ query query' : Object, run conditions = .ok (.obj (.singleton "tasks" (.obj query))) ∧
        run (conditions.insert RelationVerb.presence.name flag) =
          .ok (.obj (.singleton "tasks" (.obj query'))) ∧
        HasRoom (.ofType .relation (some "Task")) flag query ∧
        Keeps (Side.ofFlag flag) flag query query' := by
  intro conditions flag run
  let query : Object :=
    .singleton "where" (.obj (.singleton "status" (.obj (.singleton "$eq" (.str "open")))))
  have known : projects.field? "Project" "tasks" = some (.ofType .relation (some "Task")) := rfl
  have unpaired : Unpaired conditions := by decide
  have absent : conditions.get? RelationVerb.presence.name = none := rfl
  have noPair : (Operand.ofJson flag).pair? = none := rfl
  have alone : run conditions = .ok (.obj (.singleton "tasks" (.obj query))) := rfl
  have room : HasRoom (.ofType .relation (some "Task")) flag query := by
    constructor
    · rintro filter ⟨⟩
      exact ⟨nofun, nofun⟩
    · intro noFilter
      exact absurd rfl (noFilter _)
  obtain ⟨query', both, keeps⟩ := lower_presence_iff projects .relay {} known rfl (by decide) rfl
    unpaired absent noPair alone
  exact ⟨unpaired, absent, query, query', alone, both, room, keeps.mpr room⟩

/-- With the verb `have` the filter makes a subquery, which the verb `exists` replaces by the one on
all tasks. -/
theorem lower_openTasks_presence :
    let conditions : Object := .singleton "have" (.obj openTasks)
    let flag : Json := .bool true
    let run (conditions : Object) := (lower (.of projects .relay {}) "Project"
      (.obj (.singleton "tasks" (.obj conditions)))).result
    projects.field? "Project" "tasks" = some (.ofType .relation (some "Task")) ∧
      Unpaired conditions ∧ conditions.get? RelationVerb.presence.name = none ∧
      (Operand.ofJson flag).pair? = none ∧
      ∃ query query' : Object, run conditions = .ok (.obj (.singleton "tasks" (.obj query))) ∧
        run (conditions.insert RelationVerb.presence.name flag) =
          .ok (.obj (.singleton "tasks" (.obj query'))) ∧
        ¬ Keeps (Side.ofFlag flag) flag query query' := by
  intro conditions flag run
  let ofTasks (filter : Object) : Object :=
    .singleton "$inQuery" (.obj (.ofList [("className", .str "Task"), ("where", .obj filter)]))
  let query := ofTasks (.singleton "status" (.obj (.singleton "$eq" (.str "open"))))
  let query' := ofTasks (.singleton "objectId" (.obj (.singleton "$exists" (.bool true))))
  have alone : run conditions = .ok (.obj (.singleton "tasks" (.obj query))) := rfl
  have both : run (conditions.insert RelationVerb.presence.name flag) =
      .ok (.obj (.singleton "tasks" (.obj query'))) := rfl
  refine ⟨rfl, by decide, rfl, rfl, query, query', alone, both, fun keeps => ?_⟩
  have lost := keeps.members "$inQuery" (by decide) _ rfl
  have differ : query'.get? "$inQuery" ≠ query.get? "$inQuery" := by decide
  exact differ lost

end Lowering

end FilterQuery
