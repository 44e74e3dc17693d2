import FilterQuery.Proofs.Lowering.Calls

/-!
# Subqueries without a class

Where the class that a field refers to is unknown, the subquery for the field names none. Three
verbs of a field make subqueries (`Expands`): two that have a filter, and `exists`. A subquery
without a class is announced by a warning if a verb with a filter makes it, and only then
(`lower_warns_iff`): the verb `exists` makes it without a word (`lower_members_presence`).

Of the stages of a field that report on their own, the replacement of identifiers and the addition
of `exists` give no warnings (`level_of_mem_conditions`, `level_of_mem_assemble`), so the warning is
left to the calls for conditions.
-/

namespace FilterQuery

namespace Lowering

variable {cx : Context} {cls field : String} {operands : Object} {event : Event}

/-! ### Reports that are no warnings -/

/-- To replace identifiers is no reason for a warning. -/
theorem level_of_mem_conditions (mem : event ∈ (conditions cx cls field operands).events) :
    event.level ≠ .warn := by
  obtain rfl | trace := eq_or_level_of_mem_conditions mem
  · nofun
  · rw [trace]
    nofun

/-- To add the verb `exists` is no reason for a warning. -/
theorem level_of_mem_assemble {parts : List Part}
    (mem : event ∈ (assemble cx cls field parts).events) : event.level ≠ .warn := by
  obtain ⟨branch, rfl⟩ := exists_of_mem_assemble mem
  nofun

/-! ### Subqueries -/

/-- The subquery names no class. -/
def Unscoped (query : Json) : Prop :=
  ∃ members : Object, query = .obj members ∧ members.get? classNameKey = none

/-- A subquery names no class exactly if there is none to name. -/
theorem unscoped_subquery_iff {filter : Json} {target : Option String} :
    Unscoped (subquery filter target) ↔ target = none := by
  constructor
  · rintro ⟨members, eq, none⟩
    cases target with
    | none => rfl
    | some cls =>
      rw [subquery_some] at eq
      cases eq
      rw [Dict.get?_ofList] at none
      cases none
  · rintro rfl
    exact ⟨_, rfl, rfl⟩

/-- **Expansions.** A call makes a subquery for a field, out of a verb. -/
inductive Expands (cx : Context) (field : String) : RelationVerb → Json → Call → Prop
  /-- A condition with a verb that has a filter puts the subquery under the operator of its side. -/
  | verb {levels : Nat} {cls : String} {operand query : Json} {reference : Field}
    (refers : cx.schema.reference? cls field = some reference) (side : Side)
    (given : (part cx (belowAt cx levels) cls field side.verb.name operand).result =
      .ok (.own [.set side.operator.target query])) :
    Expands cx field side.verb query (.condition levels cls field side.verb.name operand)
  /-- The verb `exists` of a relation finds no filter to join when the conditions are lowered. -/
  | presence {levels : Nat} {cls key : String} {operands : Object} {parts : List Part} {flag : Json}
    {reference : Field} (refers : cx.schema.reference? cls field = some reference)
    (relation : reference.type = .relation) (gathers : Gathers cx levels cls field operands parts)
    (flagged : parts.findSome? Part.presence? = some flag)
    (alone : ∀ filter,
      (Edit.build (parts.flatMap Part.ownEdits)).get? (Side.ofFlag flag).branch ≠
        some (.obj filter)) :
    Expands cx field .presence (allReferred reference) (.field (levels + 1) cls field key operands)

/-- A verb with a filter is no `exists`. -/
theorem Side.verb_ne_presence (side : Side) : side.verb ≠ .presence := by
  cases side <;> decide

/-- What a verb with a filter gives under the operator of its side is the subquery of its filter. -/
theorem eq_subquery_of_part {levels : Nat} {operand query : Json} {reference : Field} {side : Side}
    (refers : cx.schema.reference? cls field = some reference)
    (given : (part cx (belowAt cx levels) cls field side.verb.name operand).result =
      .ok (.own [.set side.operator.target query])) :
    pairUnder? field (.ofJson operand) = none ∧
      ∃ lowered, query = subquery lowered reference.targetClass := by
  obtain ⟨pair, -, ⟨⟩⟩ | ⟨noPair, ⟨reference', known, given⟩ | ⟨plain, -⟩⟩ := part_cases given
  · cases refers.symm.trans known
    rw [referencePart_verb, Run.result_map, result_expand] at given
    obtain ⟨inner, hinner, ⟨⟩⟩ := Except.map_eq_ok_iff.mp given
    obtain ⟨lowered, -, rfl⟩ := Except.map_eq_ok_iff.mp hinner
    exact ⟨noPair, lowered, rfl⟩
  · cases refers.symm.trans plain

/-- A call warns of a field exactly if it makes a subquery without a class for the field, out of a
verb with a filter. -/
theorem reports_subqueryUnscoped_iff {call : Call} :
    Reports cx call (.subqueryUnscoped field) ↔
      ∃ verb query, Expands cx field verb query call ∧ verb ≠ .presence ∧ Unscoped query := by
  constructor
  · intro reports
    cases reports with
    | identifiers mem => exact absurd rfl (level_of_mem_conditions mem)
    | assembled gathers mem => exact absurd rfl (level_of_mem_assemble mem)
    | @unscoped levels cls _ operand reference noPair refers side unknown =>
      have given : (part cx (belowAt cx levels) cls field side.verb.name operand).result =
          .ok (.own [.set side.operator.target (subquery operand none)]) := by
        rw [part_of_reference noPair refers, referencePart_verb, Run.result_map, result_expand,
          lowerFor, unknown]
        rfl
      exact ⟨_, _, .verb refers side given, side.verb_ne_presence, unscoped_subquery_iff.mpr rfl⟩
  · rintro ⟨verb, query, expands, ne, unscoped⟩
    cases expands with
    | verb refers side given =>
      obtain ⟨noPair, lowered, rfl⟩ := eq_subquery_of_part refers given
      exact .unscoped noPair refers side (unscoped_subquery_iff.mp unscoped)
    | presence => exact absurd rfl ne

/-- **Warnings.** Whether or not a lowering succeeds, it warns of a field exactly if one of its
calls makes a subquery without a class for the field, out of a verb with a filter. A subquery that
`exists` makes gives no warning. -/
theorem lower_warns_iff (schema : Schema) (codec : Codec) (options : Options)
    (cls : String) (input : Json) (field : String) :
    let cx := Context.of schema codec options
    (∃ event ∈ (lower cx cls input).events, event.level = .warn ∧ event = .subqueryUnscoped field) ↔
      ∃ call verb query, Makes cx cls input call ∧ Expands cx field verb query call ∧
        verb ≠ .presence ∧ Unscoped query := by
  intro cx
  have warning : (∃ event ∈ (lower cx cls input).events,
      event.level = .warn ∧ event = .subqueryUnscoped field) ↔
        .subqueryUnscoped field ∈ (lower cx cls input).events := by
    constructor
    · rintro ⟨event, mem, -, rfl⟩
      exact mem
    · exact fun mem => ⟨_, mem, rfl, rfl⟩
  rw [warning, mem_events_lower_iff]
  simp only [reports_subqueryUnscoped_iff, ← exists_and_left]

/-- Projects with members of an unknown class. -/
def memberships : Schema where
  classes := [{ name := "Project", fields := .singleton "members" (.ofType .relation none) }]

example :
    let input : Json := .obj (.singleton "members" (.obj (.singleton "haveNot" (.obj ∅))))
    (lower (.of memberships .relay {}) "Project" input).events =
      [.fieldEntered "members" "Project", .subqueryUnscoped "members"] := rfl

/-- To ask whether there are members at all makes a subquery without a class, and there is no
warning. -/
theorem lower_members_presence :
    let cx := Context.of memberships .relay {}
    let input : Json := .obj (.singleton "members" (.obj (.singleton "exists" (.bool true))))
    (∃ call query, Makes cx "Project" input call ∧ Expands cx "members" .presence query call ∧
        Unscoped query ∧ (lower cx "Project" input).result =
          .ok (.obj (.singleton "members" (.obj (.singleton Operator.inQuery.target query))))) ∧
      ∀ event ∈ (lower cx "Project" input).events, event.level ≠ .warn := by
  intro cx input
  have refers : cx.schema.reference? "Project" "members" = some (.ofType .relation none) := rfl
  have made : Makes cx "Project" input
      (.field 255 "Project" "members" "members" (.singleton "exists" (.bool true))) :=
    ⟨_, rfl, .single (.entry ⟨[], [], rfl, nofun⟩ rfl)⟩
  have expands : Expands cx "members" .presence (allReferred (.ofType .relation none))
      (.field 255 "Project" "members" "members" (.singleton "exists" (.bool true))) :=
    .presence refers rfl ⟨_, rfl, rfl⟩ rfl nofun
  have events : (lower cx "Project" input).events = [.fieldEntered "members" "Project"] := rfl
  refine ⟨⟨_, _, made, expands, unscoped_subquery_iff.mpr rfl, rfl⟩, fun event mem => ?_⟩
  rw [events, List.mem_singleton] at mem
  rw [mem]
  nofun

end Lowering

end FilterQuery
