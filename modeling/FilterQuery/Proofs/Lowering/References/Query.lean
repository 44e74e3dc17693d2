import FilterQuery.Proofs.Lowering.Levels
import FilterQuery.Proofs.Lowering.Noninterference
import FilterQuery.Proofs.Lowering.Places
import FilterQuery.Proofs.Lowering.References.Members
import FilterQuery.Proofs.Lowering.Steps

/-!
# Queries of references

A filter that only has a field which refers to other objects, without pairs among its conditions,
has a query exactly if each filter among the conditions has one on its own, for the class that the
field refers to and with two levels less. The query then has the members of a `ReferenceQuery`
under the field, and nothing else (`lower_reference`).
-/

namespace FilterQuery

/-- A field that refers to other objects is found as such. -/
theorem Schema.reference?_of_field? {schema : Schema} {cls field : String} {reference : Field}
    (known : schema.field? cls field = some reference) (refers : reference.isReference = true) :
    schema.reference? cls field = some reference :=
  Option.filter_eq_some_iff.mpr ⟨known, refers⟩

namespace Lowering

/-! ### Fields -/

section Fields

variable {cx : Context} {below : Below} {levels : Nat} {cls field key : String}
  {reference : Field} {nested : Json → Json} {conditions : Object}

/-- **Nested filters.** The function gives the query of each filter among the conditions. -/
def Nests (run : Json → Except LoweringError Json) (conditions : Object) (nested : Json → Json) :
    Prop :=
  ∀ name filter, TakesFilter name → conditions.get? name = some filter →
    run filter = .ok (nested filter)

/-- If each filter among the conditions has a query, a function gives them. -/
theorem exists_nests {run : Json → Except LoweringError Json}
    (succeed : ∀ name filter, TakesFilter name → conditions.get? name = some filter →
      ∃ query, run filter = .ok query) : ∃ nested, Nests run conditions nested := by
  refine ⟨fun filter => (run filter).toOption.getD filter, fun name filter takes found => ?_⟩
  obtain ⟨query, h⟩ := succeed name filter takes found
  simp [h, Except.toOption]

/-- A filter and its query are both objects, or they are the same. -/
theorem isObject_of_lowerFor {filter query : Json}
    (h : (lowerFor below.value reference filter).result = .ok query) :
    query.isObject = filter.isObject := by
  unfold lowerFor at h
  split at h
  · cases filter with
    | obj members =>
      obtain ⟨lowered, -, rfl⟩ := Except.map_eq_ok_iff.mp ((Run.result_map ..).symm.trans h)
      rfl
    | _ =>
      cases h
      rfl
  · cases h
    rfl

/-- The filters among the conditions of a reference decide whether it is lowered with success. -/
theorem exists_result_part_iff (known : cx.schema.reference? cls field = some reference)
    (unpaired : Unpaired conditions) :
    (∀ entry ∈ conditions.toList, ∃ found,
        (part cx below cls field entry.1 entry.2).result = .ok found) ↔
      ∀ name filter, TakesFilter name → conditions.get? name = some filter →
        ∃ query, (lowerFor below.value reference filter).result = .ok query := by
  constructor
  · intro succeed name filter takes found
    obtain ⟨given, h⟩ := succeed (name, filter) (Dict.mem_toList.mpr found)
    rw [part_of_reference (pairUnder?_eq_none (unpaired name filter found) field) known,
      result_referencePart_of_takesFilter takes] at h
    obtain ⟨query, hquery, -⟩ := Except.map_eq_ok_iff.mp h
    exact ⟨query, hquery⟩
  · rintro succeed ⟨name, operand⟩ mem
    have found := Dict.mem_toList.mp mem
    rw [part_of_reference (pairUnder?_eq_none (unpaired name operand found) field) known]
    by_cases takes : TakesFilter name
    · obtain ⟨query, hquery⟩ := succeed name operand takes found
      rw [result_referencePart_of_takesFilter takes, hquery]
      exact ⟨_, rfl⟩
    · exact ⟨_, result_referencePart_of_not_takesFilter takes operand operand⟩

/-- The parts of the conditions of a reference. -/
theorem mapM_part_reference (known : cx.schema.reference? cls field = some reference)
    (unpaired : Unpaired conditions)
    (nests : Nests (fun filter => (lowerFor below.value reference filter).result) conditions
      nested) :
    (conditions.toList.mapM fun entry => (part cx below cls field entry.1 entry.2).result) =
      .ok (conditions.toList.map fun entry =>
        partOf reference entry.1 entry.2 (nested entry.2)) := by
  refine Except.mapM_eq_ok_map fun ⟨name, operand⟩ mem => ?_
  have found := Dict.mem_toList.mp mem
  rw [part_of_reference (pairUnder?_eq_none (unpaired name operand found) field) known]
  by_cases takes : TakesFilter name
  · have query : (lowerFor below.value reference operand).result = .ok (nested operand) :=
      nests name operand takes found
    rw [result_referencePart_of_takesFilter takes, query]
    rfl
  · exact result_referencePart_of_not_takesFilter takes operand (nested operand)

/-- A part of a reference has no dotted path. -/
theorem dottedEdits_partOf (reference : Field) (name : String) (operand lowered : Json) :
    (partOf reference name operand lowered).dottedEdits = [] := by
  unfold partOf
  split
  · rfl
  · rfl
  · rfl
  · rfl
  · split <;> rfl

/-- **Fields.** A reference without pairs becomes an object with the members of its query. -/
theorem exists_result_fieldStep_reference
    (known : cx.schema.reference? cls field = some reference)
    (notId : isIdField cls field = false) (unpaired : Unpaired conditions)
    (nests : Nests (fun filter => (lowerFor below.value reference filter).result) conditions
      nested) (key : String) :
    ∃ query, (fieldStep cx below cls field key conditions).result = .ok [.merge key query] ∧
      ReferenceQuery reference nested conditions query := by
  have kept : ∀ (side : Side) filter, conditions.get? side.branch = some filter →
      (nested filter).isObject = filter.isObject := fun side filter found =>
    isObject_of_lowerFor (nests side.branch filter ⟨side, .inr rfl⟩ found)
  obtain ⟨query, assembled, members⟩ := exists_result_assemble known kept
  refine ⟨query, ?_, members⟩
  have noDots : (conditions.toList.map fun entry =>
      partOf reference entry.1 entry.2 (nested entry.2)).flatMap Part.dottedEdits = [] := by
    refine List.flatMap_eq_nil_iff.mpr fun found mem => ?_
    obtain ⟨entry, -, rfl⟩ := List.mem_map.mp mem
    exact dottedEdits_partOf ..
  rw [result_fieldStep, result_conditions_of_not_id notId, Except.ok_bind,
    mapM_part_reference known unpaired nests, Except.ok_bind, assembled, Except.ok_bind, fieldEdits,
    noDots, outputKey_of_not_id notId]
  rfl

/-- **Members of fields.** A reference without pairs that is lowered with success becomes the object
with the members of its query. -/
theorem exists_referenceQuery_of_result_fieldStep
    (known : cx.schema.reference? cls field = some reference)
    (notId : isIdField cls field = false) (unpaired : Unpaired conditions) {edits : List Edit}
    (h : (fieldStep cx below cls field key conditions).result = .ok edits) :
    ∃ nested query,
      Nests (fun filter => (lowerFor below.value reference filter).result) conditions nested ∧
        ReferenceQuery reference nested conditions query ∧ edits = [.merge key query] := by
  have steps := h
  rw [result_fieldStep, result_conditions_of_not_id notId, Except.ok_bind] at steps
  obtain ⟨parts, hparts, -⟩ := Except.bind_eq_ok_iff.mp steps
  have succeed := (exists_result_part_iff known unpaired).mp (Except.exists_of_mapM_eq_ok hparts)
  obtain ⟨nested, nests⟩ := exists_nests succeed
  obtain ⟨query, step, members⟩ :=
    exists_result_fieldStep_reference known notId unpaired nests key
  exact ⟨nested, query, nests, members, Except.ok.inj (h.symm.trans step)⟩

/-- A field of its own takes two levels, one for the filter and one for its conditions. -/
theorem result_lower_field (noName : Combinator.ofName? field = none)
    (enough : cx.limit = levels + 2) :
    (lower cx cls (.obj (.singleton field (.obj conditions)))).result =
      (fun edits => Json.obj (Edit.build edits)) <$>
        (fieldStep cx (belowAt cx levels) cls field field conditions).result := by
  have entry : entryStep (belowAt cx (levels + 1)) cls field (.obj conditions) =
      fieldStep cx (belowAt cx levels) cls field field conditions :=
    entryStep_obj noName (belowAt cx (levels + 1)) cls conditions
  rw [result_lower_obj, enough, filterAt_succ, result_filterStep_singleton, entry, Functor.map_map]

/-- With less than two levels a field of its own fails. -/
theorem two_le_of_lower_field (noName : Combinator.ofName? field = none) {output : Json}
    (h : (lower cx cls (.obj (.singleton field (.obj conditions)))).result = .ok output) :
    ∃ levels, cx.limit = levels + 2 := by
  rw [result_lower_obj] at h
  rcases limit : cx.limit with _ | _ | levels
  · rw [limit] at h
    cases h
  · rw [limit, filterAt_succ, result_filterStep_singleton, entryStep_obj noName] at h
    cases h
  · exact ⟨levels, rfl⟩

end Fields

/-! ### Queries -/

section Queries

variable {cx : Context} {levels : Nat} {cls field : String} {reference : Field}
  {nested : Json → Json} {conditions : Object} {output : Json}

/-- What a filter on the objects that a field refers to becomes on its own, under the limit of the
levels. -/
def nestedResult (cx : Context) (levels : Nat) (reference : Field) (filter : Json) :
    Except LoweringError Json :=
  (lowerFor (lower { cx with limit := levels }) reference filter).result

/-- Filters on the objects that a field refers to have the queries that they have on their own. -/
theorem result_lowerFor_belowAt_eq_ok_iff {filter query : Json} :
    (lowerFor (belowAt cx levels).value reference filter).result = .ok query ↔
      nestedResult cx levels reference filter = .ok query := by
  unfold nestedResult lowerFor
  split
  · exact value_belowAt_eq_ok_iff
  · rfl

/-- Under a field with two levels, filters have the queries that they have under options with two
levels less. -/
theorem nestedResult_of_maxDepth (schema : Schema) (codec : Codec) {options : Options}
    (enough : options.maxDepth = levels + 2) (reference : Field) (filter : Json) :
    nestedResult (.of schema codec options) levels reference filter =
      (lowerFor (lower (.of schema codec { options with maxDepth := options.maxDepth - 2 }))
        reference filter).result := by
  have same : options.maxDepth - 2 = levels := by omega
  rw [same]
  rfl

/-- Where the filters among the conditions have queries, the reference has its query. -/
theorem exists_result_lower_reference
    (known : cx.schema.reference? cls field = some reference) (notId : field ≠ idField)
    (noName : Combinator.ofName? field = none) (unpaired : Unpaired conditions)
    (enough : cx.limit = levels + 2)
    (nests : Nests (nestedResult cx levels reference) conditions nested) :
    ∃ query, (lower cx cls (.obj (.singleton field (.obj conditions)))).result =
        .ok (.obj (.singleton field (.obj query))) ∧
      ReferenceQuery reference nested conditions query := by
  have plain : isIdField cls field = false := isIdField_of_ne notId cls
  have below : Nests (fun filter => (lowerFor (belowAt cx levels).value reference filter).result)
      conditions nested := fun name filter takes found =>
    result_lowerFor_belowAt_eq_ok_iff.mpr (nests name filter takes found)
  obtain ⟨query, step, members⟩ :=
    exists_result_fieldStep_reference known plain unpaired below field
  refine ⟨query, ?_, members⟩
  rw [result_lower_field noName enough, step]
  rfl

/-- **Members.** A reference that has a query has two levels and the query of its members. -/
theorem exists_referenceQuery_of_result_lower
    (known : cx.schema.reference? cls field = some reference) (notId : field ≠ idField)
    (noName : Combinator.ofName? field = none) (unpaired : Unpaired conditions)
    (h : (lower cx cls (.obj (.singleton field (.obj conditions)))).result = .ok output) :
    ∃ levels nested query, cx.limit = levels + 2 ∧
      Nests (nestedResult cx levels reference) conditions nested ∧
      ReferenceQuery reference nested conditions query ∧
        output = .obj (.singleton field (.obj query)) := by
  obtain ⟨levels, enough⟩ := two_le_of_lower_field noName h
  have plain : isIdField cls field = false := isIdField_of_ne notId cls
  rw [result_lower_field noName enough] at h
  obtain ⟨edits, step, rfl⟩ := Except.map_eq_ok_iff.mp h
  obtain ⟨nested, query, nests, members, rfl⟩ :=
    exists_referenceQuery_of_result_fieldStep known plain unpaired step
  exact ⟨levels, nested, query, enough, fun name filter takes found =>
    result_lowerFor_belowAt_eq_ok_iff.mp (nests name filter takes found), members, rfl⟩

end Queries

/-- **References.** A filter that only has a field which refers to other objects, without pairs
among its conditions, has a query exactly if two levels may be entered and each filter among the
conditions has a query on its own, for the class that the field refers to and with two levels less.
Its query then has nothing but the field, with the members that the conditions and these queries
determine. -/
theorem lower_reference (schema : Schema) (codec : Codec) (options : Options) {cls field : String}
    {reference : Field} {conditions : Object} (known : schema.field? cls field = some reference)
    (refers : reference.isReference = true) (notId : field ≠ idField)
    (noName : Combinator.ofName? field = none) (unpaired : Unpaired conditions) :
    let rest : Options := { options with maxDepth := options.maxDepth - 2 }
    let alone (filter : Json) := (lowerFor (lower (.of schema codec rest)) reference filter).result
    let whole := (lower (.of schema codec options) cls
      (.obj (.singleton field (.obj conditions)))).result
    ((∃ output, whole = .ok output) ↔ 2 ≤ options.maxDepth ∧
        ∀ name filter, TakesFilter name → conditions.get? name = some filter →
          ∃ query, alone filter = .ok query) ∧
      ∀ output, whole = .ok output → ∃ nested query,
        (∀ name filter, TakesFilter name → conditions.get? name = some filter →
          alone filter = .ok (nested filter)) ∧
        ReferenceQuery reference nested conditions query ∧
          output = .obj (.singleton field (.obj query)) := by
  intro rest alone whole
  let cx : Context := .of schema codec options
  have found : cx.schema.reference? cls field = some reference :=
    Schema.reference?_of_field? known refers
  have members : ∀ output, whole = .ok output → ∃ levels nested query,
      options.maxDepth = levels + 2 ∧ Nests (nestedResult cx levels reference) conditions nested ∧
        ReferenceQuery reference nested conditions query ∧
          output = .obj (.singleton field (.obj query)) := fun output h =>
    exists_referenceQuery_of_result_lower found notId noName unpaired h
  have left {levels : Nat} (enough : options.maxDepth = levels + 2) (filter : Json) :
      alone filter = nestedResult cx levels reference filter :=
    (nestedResult_of_maxDepth schema codec enough reference filter).symm
  refine ⟨⟨?_, ?_⟩, ?_⟩
  · rintro ⟨output, h⟩
    obtain ⟨levels, nested, query, enough, nests, -, -⟩ := members output h
    refine ⟨by omega, fun name filter takes given => ⟨nested filter, ?_⟩⟩
    rw [left enough]
    exact nests name filter takes given
  · rintro ⟨two, succeed⟩
    have enough : options.maxDepth = options.maxDepth - 2 + 2 := by omega
    obtain ⟨nested, nests⟩ : ∃ nested,
        Nests (nestedResult cx (options.maxDepth - 2) reference) conditions nested :=
      exists_nests succeed
    obtain ⟨query, h, -⟩ :=
      exists_result_lower_reference found notId noName unpaired enough nests
    exact ⟨_, h⟩
  · intro output h
    obtain ⟨levels, nested, query, enough, nests, closed, eq⟩ := members output h
    refine ⟨nested, query, fun name filter takes given => ?_, closed, eq⟩
    rw [left enough]
    exact nests name filter takes given

/-! ### A project with its tasks -/

/-- Conditions on the tasks of a project, where several of them speak of the same subquery. The flag
finds no filter to join. -/
def taskConditions : Object :=
  .ofList [("equalTo", .str "t1"), ("exists", .bool false),
    ("have", .obj (.singleton "status" (.obj (.singleton "equalTo" (.str "open"))))),
    ("haveNot", .obj (.singleton "status" (.str "open"))), ("inQuery", .obj .nil),
    ("note", .bool true), ("notWhere", .str "none"),
    ("where", .obj (.singleton "id" (.obj (.singleton "equalTo" (.str "VGFzazox")))))]

/-- A truthy flag with a filter to join, and a filter on the other side. -/
def flaggedConditions : Object :=
  .ofList [("exists", .num (.int 1)), ("notWhere", .obj (.singleton "status" (.str "done"))),
    ("where", .obj (.singleton "id" (.obj (.singleton "equalTo" (.str "VGFzazox")))))]

/-- A truthy flag without a filter, beside the verbs. -/
def presentConditions : Object :=
  .ofList [("exists", .str "yes"), ("have", .obj (.singleton "status" (.str "open"))),
    ("haveNot", .obj (.singleton "status" (.str "done"))), ("inQuery", .obj .nil)]

/-- The subquery for tasks with an identifier. -/
def anyTask : Json :=
  .obj (.ofList [("className", .str "Task"),
    ("where", .obj (.singleton "objectId" (.obj (.singleton "$exists" (.bool true)))))])

/-- The operator `inQuery` replaces the verb `have`, and a flag that finds no filter to join
replaces what its side has. A flag that finds one joins what this asks of identifiers, and leaves
the filter of the other side alone. The filter under `where` is one on tasks. -/
theorem lower_taskConditions :
    projects.field? "Project" "tasks" = some (.ofType .relation (some "Task")) ∧
      ∀ run ∈ [
        (taskConditions, Dict.ofList [("$eq", .str "t1"), ("$inQuery", .obj .nil),
          ("$notInQuery", anyTask), ("notWhere", .str "none"),
          ("where", .obj (.singleton "objectId" (.obj (.singleton "$eq" (.str "1")))))]),
        (flaggedConditions, Dict.ofList [("notWhere", .obj (.singleton "status" (.str "done"))),
          ("where", .obj (.singleton "objectId" (.obj (.ofList [("$eq", .str "1"),
            ("$exists", .num (.int 1))]))))]),
        (presentConditions, Dict.ofList [("$inQuery", anyTask), ("$notInQuery", .obj (.ofList
          [("className", .str "Task"), ("where", .obj (.singleton "status" (.str "done")))]))])],
        Unpaired run.1 ∧
          (lower (.of projects .relay {}) "Project"
            (.obj (.singleton "tasks" (.obj run.1)))).result =
              .ok (.obj (.singleton "tasks" (.obj run.2))) ∧
          ∃ nested, ReferenceQuery (.ofType .relation (some "Task")) nested run.1 run.2 := by
  have known : projects.field? "Project" "tasks" = some (.ofType .relation (some "Task")) := rfl
  refine ⟨known, fun run mem => ?_⟩
  have unpaired : Unpaired run.1 := by
    simp only [List.mem_cons, List.not_mem_nil, or_false] at mem
    rcases mem with rfl | rfl | rfl <;> decide
  have whole : (lower (.of projects .relay {}) "Project"
      (.obj (.singleton "tasks" (.obj run.1)))).result =
        .ok (.obj (.singleton "tasks" (.obj run.2))) := by
    simp only [List.mem_cons, List.not_mem_nil, or_false] at mem
    rcases mem with rfl | rfl | rfl <;> rfl
  obtain ⟨-, members⟩ := lower_reference projects .relay {} known rfl (by decide) rfl unpaired
  obtain ⟨nested, _, -, closed, eq⟩ := members _ whole
  refine ⟨unpaired, whole, nested, ?_⟩
  cases eq
  exact closed

end Lowering

end FilterQuery
