import FilterQuery.Proofs.Lowering.Levels
import FilterQuery.Proofs.Lowering.Noninterference
import FilterQuery.Proofs.Lowering.Steps

/-!
# Filters through references

A filter on the objects that a field refers to is lowered like a filter on their class. With `Hop`s
from class to class a filter speaks of objects that are several references away, and the query then
consists of one subquery for each hop, around the query that the innermost filter has on its own
(`lower_foldr_filter`).

A hop takes two levels, one for the filter and one for the conditions of the field. Apart from this,
nothing of what is around the innermost filter is seen inside of it (`result_value_hop`, and by
induction on the hops `result_value_foldr_filter`).
-/

namespace FilterQuery

open Lowering

/-- **Hops.** The step from a class to the class that one of its fields refers to, in a filter that
asks that there are such objects, or that there are none. -/
structure Hop where
  /-- The field. -/
  field : String
  /-- Does the filter ask that there are none? -/
  isNegated : Bool
  /-- The class that the field refers to. -/
  target : String
deriving DecidableEq, Repr

namespace Hop

/-- The verb that asks for the objects. -/
def verb (hop : Hop) : RelationVerb := bif hop.isNegated then .notMatching else .matching

/-- The operator that the verb becomes. -/
def operator (hop : Hop) : Operator := bif hop.isNegated then .notInQuery else .inQuery

/-- The filter that asks for objects which satisfy the inner filter. -/
def filter (hop : Hop) (inner : Json) : Json :=
  .obj (.singleton hop.field (.obj (.singleton hop.verb.name inner)))

/-- The query that asks for objects which satisfy the inner query. -/
def query (hop : Hop) (inner : Json) : Json :=
  .obj (.singleton hop.field (.obj (.singleton hop.operator.target
    (.obj (.ofList [("className", .str hop.target), ("where", inner)])))))

end Hop

/-- **Paths.** Hops that lead from a class to another, each along the link of a field. The field is
neither `id` nor spelled like a combinator, which have meanings of their own in a filter. -/
inductive Schema.Path (schema : Schema) : String → List Hop → String → Prop
  /-- No hop stays at the class. -/
  | nil {cls : String} : Path schema cls [] cls
  /-- A hop along a link, then the other hops. -/
  | cons {cls last : String} {hop : Hop} {hops : List Hop} {type : FieldType}
    (link : schema.link? cls hop.field = some ⟨type, some hop.target⟩)
    (notId : hop.field ≠ idField) (noName : Combinator.ofName? hop.field = none)
    (rest : Path schema hop.target hops last) : Path schema cls (hop :: hops) last

namespace Lowering

/-! ### One hop -/

section Hops

variable {cx : Context} {below : Below} {cls : String} {hop : Hop} {reference : Field}
  {operand : Json}

/-- A subquery on a class has the class and the filter as its members. -/
theorem subquery_some (filter : Json) (cls : String) :
    subquery filter (some cls) =
      .obj (.ofList [("className", .str cls), ("where", filter)]) := by
  refine congrArg Json.obj (Dict.ext_get? fun key => ?_)
  have entries : (Dict.ofPresent [(whereKey, some filter), (classNameKey, some (.str cls))]) =
      Dict.ofList [("where", filter), ("className", .str cls)] := rfl
  rw [Option.map_some, entries, Dict.get?_ofList, Dict.get?_ofList]
  by_cases h : key = "where"
  · rw [h]
    rfl
  · simp [List.lookup_cons, beq_false_of_ne h]

theorem result_expand (lower : String → Json → Run Json) (field : String) (operator : Operator)
    (reference : Field) (filter : Json) :
    (expand lower field operator reference filter).result =
      (subquery · reference.targetClass) <$> (lowerFor lower reference filter).result := by
  rw [expand, Run.result_bind]
  exact Run.result_map (lowerFor lower reference filter) (subquery · reference.targetClass)

/-- The verb of a hop gives one edit, with the subquery. -/
theorem result_part_hop (known : cx.schema.reference? cls hop.field = some reference)
    (unpaired : (Operand.ofJson operand).pair? = none) :
    (part cx below cls hop.field hop.verb.name operand).result =
      (fun inner => Part.own [.set hop.operator.target (subquery inner reference.targetClass)]) <$>
        (lowerFor below.value reference operand).result := by
  rw [part_of_reference (pairUnder?_eq_none unpaired hop.field) known, referencePart,
    RelationVerb.ofName?_name, Hop.operator, Hop.verb]
  cases hop.isNegated
  · dsimp only [cond_false]
    rw [Run.result_bind, result_expand]
    rcases (lowerFor below.value reference operand).result with e | inner <;> rfl
  · dsimp only [cond_true]
    rw [Run.result_bind, result_expand]
    rcases (lowerFor below.value reference operand).result with e | inner <;> rfl

/-- A field that has only the verb of a hop becomes an object with the subquery. -/
theorem result_fieldStep_hop (known : cx.schema.reference? cls hop.field = some reference)
    (notId : hop.field ≠ idField) (unpaired : (Operand.ofJson operand).pair? = none)
    (key : String) :
    (fieldStep cx below cls hop.field key (.singleton hop.verb.name operand)).result =
      (fun inner => [Edit.merge key (.singleton hop.operator.target
        (subquery inner reference.targetClass))]) <$>
          (lowerFor below.value reference operand).result := by
  have plain : isIdField cls hop.field = false := isIdField_of_ne notId cls
  have entries : (conditions cx cls hop.field (.singleton hop.verb.name operand)).result =
      .ok [(hop.verb.name, operand)] := result_conditions_of_not_id plain cx _
  rw [result_fieldStep, entries, Except.ok_bind, Except.mapM_singleton, outputKey_of_not_id plain,
    result_part_hop known unpaired]
  rcases (lowerFor below.value reference operand).result with e | inner
  · rfl
  · -- The only part is an edit of the object of the field, and no verb `exists` is there.
    have assembled : assemble cx cls hop.field
        [.own [.set hop.operator.target (subquery inner reference.targetClass)]] =
          pure (.singleton hop.operator.target (subquery inner reference.targetClass)) := by
      rw [assemble, known]
      rfl
    rw [Except.map_ok, Except.map_ok, Except.map_ok, Except.ok_bind, assembled]
    rfl

/-- **Hops.** A hop takes two levels, and then the inner filter is lowered for the class that the
hop leads to. -/
theorem result_value_hop {type : FieldType}
    (link : cx.schema.link? cls hop.field = some ⟨type, some hop.target⟩)
    (notId : hop.field ≠ idField) (noName : Combinator.ofName? hop.field = none)
    (unpaired : (Operand.ofJson operand).pair? = none) (levels : Nat) :
    ((belowAt cx (levels + 2)).value cls (hop.filter operand)).result =
      hop.query <$> ((belowAt cx levels).value hop.target operand).result := by
  obtain ⟨reference, known, hlink⟩ := Option.map_eq_some_iff.mp link
  have target : reference.targetClass = some hop.target := congrArg Link.target hlink
  let conditions : Object := .singleton hop.verb.name operand
  have filter : (belowAt cx (levels + 2)).value cls (hop.filter operand) =
      Json.obj <$> filterStep (belowAt cx (levels + 1)) cls
        (.singleton hop.field (.obj conditions)) := rfl
  have entry : entryStep (belowAt cx (levels + 1)) cls hop.field (.obj conditions) =
      fieldStep cx (belowAt cx levels) cls hop.field hop.field conditions :=
    entryStep_obj noName (belowAt cx (levels + 1)) cls conditions
  have inside : lowerFor (belowAt cx levels).value reference operand =
      (belowAt cx levels).value hop.target operand := by
    rw [lowerFor, target]
  rw [filter, Run.result_map, result_filterStep_singleton, entry,
    result_fieldStep_hop known notId unpaired, inside, target]
  rcases ((belowAt cx levels).value hop.target operand).result with e | inner
  · rfl
  · rw [Except.map_ok, Except.map_ok, Except.map_ok, Except.map_ok, subquery_some]
    rfl

end Hops

/-! ### Several hops -/

variable {schema : Schema} {codec : Codec} {cls last : String} {hops : List Hop} {inner : Json}

/-- A pair has two members, so an object with one is none. -/
theorem pair?_hop_filter (hop : Hop) (inner : Json) :
    (Operand.ofJson (hop.filter inner)).pair? = none := by
  have single (key : String) (value : Json) :
      PathPair.ofObject? (.singleton key value) = none := by
    rw [PathPair.ofObject?, Dict.get?_singleton, Dict.get?_singleton]
    by_cases h : "key" = key
    · have other : "value" ≠ key := h ▸ by decide
      rw [if_pos h, if_neg other]
      cases value <;> rfl
    · rw [if_neg h]
  rw [Hop.filter, Operand.ofJson, Operand.pair?_ofObject, single]

theorem pair?_foldr_filter (unpaired : (Operand.ofJson inner).pair? = none) (hops : List Hop) :
    (Operand.ofJson (hops.foldr Hop.filter inner)).pair? = none := by
  cases hops with
  | nil => exact unpaired
  | cons hop hops => exact pair?_hop_filter hop _

/-- **Several hops.** Every hop takes two levels, and the innermost filter is lowered for the class
that the last hop leads to. -/
theorem result_value_foldr_filter (cx : Context) (path : cx.schema.Path cls hops last)
    (unpaired : (Operand.ofJson inner).pair? = none) (levels : Nat) :
    ((belowAt cx (levels + 2 * hops.length)).value cls (hops.foldr Hop.filter inner)).result =
      hops.foldr Hop.query <$> ((belowAt cx levels).value last inner).result := by
  induction path with
  | nil => exact (id_map _).symm
  | @cons cls last hop hops type link notId noName rest ih =>
    have enough : levels + 2 * (hop :: hops).length = levels + 2 * hops.length + 2 := by
      rw [List.length_cons]
      omega
    rw [enough, List.foldr_cons,
      result_value_hop link notId noName (pair?_foldr_filter unpaired hops), ih, Functor.map_map]
    rfl

/-- **Subqueries.** A filter at the end of some hops is lowered as it is on its own for the class
that the hops lead to, with two levels less for each hop. If it has a query there, the whole has
the query that the hops make of it, and no other; if it fails, the whole fails with the same error,
which names the whole limit if it names one. -/
theorem lower_foldr_filter {schema : Schema} (codec : Codec) {options : Options}
    (path : schema.Path cls hops last) (unpaired : (Operand.ofJson inner).pair? = none)
    (deep : 2 * hops.length < options.maxDepth) :
    let rest : Options := { options with maxDepth := options.maxDepth - 2 * hops.length }
    let alone := (lower (.of schema codec rest) last inner).result
    let nested := (lower (.of schema codec options) cls (hops.foldr Hop.filter inner)).result
    (∀ query, nested = .ok query ↔
        ∃ core, alone = .ok core ∧ query = hops.foldr Hop.query core) ∧
      (∀ value cause, alone = .error (.invalidIdentifier value cause) →
        nested = .error (.invalidIdentifier value cause)) ∧
      ∀ limit, alone = .error (.depthExceeded limit) →
        nested = .error (.depthExceeded options.maxDepth) := by
  intro rest alone nested
  have levels : options.maxDepth = rest.maxDepth + 2 * hops.length :=
    (Nat.sub_add_cancel (Nat.le_of_lt deep)).symm
  let whole : Context := .of schema codec options
  have split : nested = hops.foldr Hop.query <$>
      ((belowAt whole rest.maxDepth).value last inner).result := by
    rw [← result_value_foldr_filter whole path unpaired, ← levels]
    rfl
  have same : nested =
      hops.foldr Hop.query <$> alone.mapError (·.underLimit options.maxDepth) := by
    rw [split]
    exact congrArg _ (congrArg Run.result (value_belowAt ..))
  rw [same]
  rcases alone with (⟨value, cause⟩ | limit) | core
  · refine ⟨fun query => ⟨nofun, fun ⟨_, h, _⟩ => nomatch h⟩, ?_, nofun⟩
    rintro value cause ⟨⟩
    rfl
  · refine ⟨fun query => ⟨nofun, fun ⟨_, h, _⟩ => nomatch h⟩, nofun, ?_⟩
    rintro limit ⟨⟩
    rfl
  · refine ⟨fun query => ?_, nofun, nofun⟩
    constructor
    · rintro ⟨⟩
      exact ⟨core, rfl, rfl⟩
    · rintro ⟨_, ⟨⟩, rfl⟩
      rfl

/-! ### Projects through their tasks -/

/-- From projects to their tasks, and from there to projects that the tasks do not belong to. -/
def tasksElsewhere : List Hop := [⟨"tasks", false, "Task"⟩, ⟨"project", true, "Project"⟩]

/-- The filter on the project with the local id `1`. -/
def firstProject : Json :=
  .obj (.singleton "id" (.obj (.singleton "equalTo" (.str "UHJvamVjdDox"))))

/-- The hops lead from projects back to projects, so the identifier at their end is that of a
project, and of six levels two are left for the innermost filter. -/
theorem lower_tasksElsewhere :
    let options : Options := { maxDepth := 6 }
    let core : Json := .obj (.singleton "objectId" (.obj (.singleton "$eq" (.str "1"))))
    projects.Path "Project" tasksElsewhere "Project" ∧
      (Operand.ofJson firstProject).pair? = none ∧ 2 * tasksElsewhere.length < options.maxDepth ∧
      (lower (.of projects .relay { options with maxDepth := 2 }) "Project" firstProject).result =
        .ok core ∧
      (lower (.of projects .relay options) "Project"
        (tasksElsewhere.foldr Hop.filter firstProject)).result =
          .ok (tasksElsewhere.foldr Hop.query core) := by
  intro options core
  have tasks : projects.link? "Project" "tasks" = some ⟨.relation, some "Task"⟩ := rfl
  have project : projects.link? "Task" "project" = some ⟨.pointer, some "Project"⟩ := rfl
  have path : projects.Path "Project" tasksElsewhere "Project" :=
    .cons tasks (by decide) rfl (.cons project (by decide) rfl .nil)
  have unpaired : (Operand.ofJson firstProject).pair? = none := rfl
  have deep : 2 * tasksElsewhere.length < options.maxDepth := by decide
  have alone : (lower (.of projects .relay { options with maxDepth := 2 }) "Project"
      firstProject).result = .ok core := rfl
  have nested := (lower_foldr_filter .relay path unpaired deep).1
  exact ⟨path, unpaired, deep, alone, (nested _).mpr ⟨core, alone, rfl⟩⟩

end Lowering

end FilterQuery
