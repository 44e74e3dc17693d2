import FilterQuery.Proofs.Lowering.DottedPaths
import FilterQuery.Proofs.Lowering.Keys
import FilterQuery.Proofs.Lowering.Siblings

/-!
# Two entries on local ids

Where there is a class, the entry of `id` goes to the key `objectId`, which a filter may have an
entry for as well. No other entry changes that key (`eq_of_entryKey_objectIdKey`), so what stands
there in the query is told by what the two entries become on their own (`lower_ids`).

Two objects become one, with the operators of both. A literal, however, is written over what it
finds, and an object over a literal that it finds. The entry of `objectId` comes second: where one
of the two is a literal, nothing is left of the entry of `id` (`lower_notFirstAnd_literal`).
-/

namespace FilterQuery

namespace Lowering

section Entries

variable {cx : Context} {levels : Nat} {cls key : String} {a b value : Json}
  {filter query : Object} {edits : List Edit}

/-- Only the entries of `id` and `objectId` give the key of local ids. -/
theorem eq_of_entryKey_objectIdKey (gives : EntryKey cls key value objectIdKey) :
    key = idField ∨ key = objectIdKey := by
  generalize eq : objectIdKey = k at gives
  cases gives with
  | @combinator combinator name => exact absurd eq.symm combinator.target_ne_objectIdKey
  | @dotted _ _ _ pair => exact absurd eq (ne_dotted (by decide) key pair.path)
  | own => exact .inr rfl
  | objectId isId => exact .inl isId

/-- A field without pairs puts one value under the key that it is sent to. A literal stays as it
is. -/
theorem exists_put_of_entryStep (noName : Combinator.ofName? key = none)
    (undotted : Undotted value)
    (h : (entryStep (belowAt cx levels) cls key value).result = .ok edits) :
    ∃ lowered, edits = [.put (outputKey cls key key) lowered] ∧
      lowered.isObject = value.isObject ∧ (value.isObject = false → lowered = value) := by
  cases value with
  | obj operands =>
    have none : pathEdits key operands = [] :=
      pathEdits_eq_nil_iff.mpr (.inr (undotted operands rfl))
    rw [entryStep_obj noName] at h
    cases levels with
    | zero => cases h
    | succ levels =>
      obtain ⟨some, -⟩ | ⟨-, -, -, lowered, -, -, -, rfl⟩ := edits_of_fieldStep h
      · exact absurd none some
      · exact ⟨.obj lowered, rfl, rfl, nofun⟩
  | _ =>
    rw [entryStep_literal noName rfl] at h
    cases h
    exact ⟨_, rfl, rfl, fun _ => rfl⟩

/-- An operator in what a plain field puts is there for a condition. -/
theorem exists_targetKey_of_entryStep (noName : Combinator.ofName? key = none)
    (plain : cx.schema.reference? cls key = none) {conditions lowered : Object} {sent : String}
    (unpaired : Unpaired conditions)
    (h : (entryStep (belowAt cx levels) cls key (.obj conditions)).result =
      .ok [.put sent (.obj lowered)])
    {operator : Operator} (member : (lowered.get? operator.target).isSome) :
    ∃ name operand, conditions.get? name = some operand ∧ targetKey name = operator.target := by
  obtain ⟨value, member⟩ := Option.isSome_iff_exists.mp member
  rw [entryStep_obj noName] at h
  cases levels with
  | zero => cases h
  | succ levels =>
    exact exists_targetKey plain (pathEdits_eq_nil_iff.mpr (.inr unpaired)) h member

/-- A filter with nothing but the entry has what it puts. -/
theorem result_lower_of_put (enough : cx.limit = levels + 1) {sent : String} {lowered : Json}
    (h : (entryStep (belowAt cx levels) cls key value).result = .ok [.put sent lowered]) :
    (lower cx cls (.obj (.singleton key value))).result = .ok (.obj (.singleton sent lowered)) := by
  rw [result_lower_obj, enough, filterAt_succ, result_filterStep_singleton, h, Except.map_ok,
    Edit.build_put, Except.map_ok]

/-- **Two entries.** What stands under the key of local ids is what the entries of `id` and
`objectId` put there, one after the other. -/
theorem get?_objectIdKey_of_filterStep (hasClass : cls ≠ "")
    (entryId : filter.get? idField = some a) (entryObjectId : filter.get? objectIdKey = some b)
    (undottedId : Undotted a) (undottedObjectId : Undotted b)
    (h : (filterStep (belowAt cx levels) cls filter).result = .ok query) :
    ∃ first second,
      (entryStep (belowAt cx levels) cls idField a).result = .ok [.put objectIdKey first] ∧
      (entryStep (belowAt cx levels) cls objectIdKey b).result = .ok [.put objectIdKey second] ∧
      (first.isObject = a.isObject ∧ (a.isObject = false → first = a)) ∧
      (second.isObject = b.isObject ∧ (b.isObject = false → second = b)) ∧
      query.get? objectIdKey = some (Edit.joined first second) := by
  obtain ⟨succeed, rfl⟩ := result_filterStep_eq_ok_iff.mp h
  obtain ⟨editsId, stepId⟩ := succeed _ (Dict.mem_toList.mpr entryId)
  obtain ⟨editsObjectId, stepObjectId⟩ := succeed _ (Dict.mem_toList.mpr entryObjectId)
  obtain ⟨first, rfl, firstShape⟩ := exists_put_of_entryStep rfl undottedId stepId
  obtain ⟨second, rfl, secondShape⟩ := exists_put_of_entryStep rfl undottedObjectId stepObjectId
  have plain : isIdField cls objectIdKey = false := isIdField_of_ne (by decide) cls
  rw [outputKey_of_id rfl hasClass] at stepId
  rw [outputKey_of_not_id plain] at stepObjectId
  refine ⟨first, second, stepId, stepObjectId, firstShape, secondShape, ?_⟩
  have before : idField < objectIdKey := by decide
  rw [Edit.get?_build_of_both before entryId entryObjectId, entryEdits_of_ok stepId,
    entryEdits_of_ok stepObjectId]
  · exact Edit.get?_build_put_put objectIdKey first second
  · intro name value _ edit mem own
    have step := result_entryStep_of_mem mem
    exact eq_of_entryKey_objectIdKey ((exists_key_of_entryStep_iff step).mp ⟨edit, mem, own⟩)

end Entries

/-! ### What is retained -/

/-- The conditions of the values have no operator in common, whether it is named or written as the
target itself. Only operators count: a condition of an unknown name may occur on both sides. -/
def TargetsApart (a b : Json) : Prop :=
  ∀ conditions others : Object, a = .obj conditions → b = .obj others →
    ∀ (operator : Operator) name operand name' operand', conditions.get? name = some operand →
      others.get? name' = some operand' → targetKey name = operator.target →
        targetKey name' ≠ operator.target

/-- **Retained conditions.** What is found says what was asked for: it has every operator of an
object with its operand, and a literal is there as it is or as an operand. -/
def Retains (found : Json) : Json → Prop
  | .obj members => ∀ (operator : Operator) value, members.get? operator.target = some value →
    ∃ all, found = .obj all ∧ all.get? operator.target = some value
  | literal => found = literal ∨ ∃ all name, found = .obj all ∧ all.get? name = some literal

/-- Two objects without a common operator are retained together. -/
theorem retains_joined {first second : Object}
    (apart : ∀ operator : Operator, (first.get? operator.target).isSome →
      second.get? operator.target = none) :
    Retains (Edit.joined (.obj first) (.obj second)) (.obj first) ∧
      Retains (Edit.joined (.obj first) (.obj second)) (.obj second) := by
  constructor
  · intro operator value member
    refine ⟨first ∪ second, rfl, ?_⟩
    rw [Dict.get?_union, apart operator (Option.isSome_of_mem member), Option.none_or, member]
  · intro operator value member
    refine ⟨first ∪ second, rfl, ?_⟩
    rw [Dict.get?_union, member, Option.some_or]

/-- **Two entries on local ids.** Where a filter has entries under `id` and under `objectId`, its
query has under `objectId` what the two become on their own, put together if both are objects. All
their operators are retained then. Otherwise the entry of `objectId` is all that is left. -/
theorem lower_ids (schema : Schema) (codec : Codec) (options : Options) {cls : String}
    {filter : Object} {a b : Json} (hasClass : cls ≠ "")
    (plainId : schema.reference? cls idField = none)
    (plainObjectId : schema.reference? cls objectIdKey = none)
    (entryId : filter.get? idField = some a) (entryObjectId : filter.get? objectIdKey = some b)
    (undottedId : Undotted a) (undottedObjectId : Undotted b) (apart : TargetsApart a b) :
    let run (filter : Object) := (lower (.of schema codec options) cls (.obj filter)).result
    ∀ output, run filter = .ok output → ∃ query first second, output = .obj query ∧
      run (.singleton idField a) = .ok (.obj (.singleton objectIdKey first)) ∧
      run (.singleton objectIdKey b) = .ok (.obj (.singleton objectIdKey second)) ∧
      (a.isObject = false → first = a) ∧ (b.isObject = false → second = b) ∧
      query.get? objectIdKey = some (Edit.joined first second) ∧
      (a.isObject = true → b.isObject = true →
        Retains (Edit.joined first second) first ∧ Retains (Edit.joined first second) second) ∧
      (a.isObject = false ∨ b.isObject = false → Edit.joined first second = second) := by
  intro run output h
  change (lower (.of schema codec options) cls (.obj filter)).result = .ok output at h
  rw [result_lower_obj] at h
  obtain ⟨query, hquery, rfl⟩ := Except.map_eq_ok_iff.mp h
  rcases enough : (Context.of schema codec options).limit with _ | levels
  · rw [enough] at hquery
    cases hquery
  rw [enough, filterAt_succ] at hquery
  obtain ⟨first, second, stepId, stepObjectId, ⟨shape, literal⟩, ⟨shape', literal'⟩, found⟩ :=
    get?_objectIdKey_of_filterStep hasClass entryId entryObjectId undottedId undottedObjectId hquery
  refine ⟨query, first, second, rfl, result_lower_of_put enough stepId,
    result_lower_of_put enough stepObjectId, literal, literal', found, ?_, ?_⟩
  · intro object object'
    obtain ⟨lowered, rfl⟩ := Json.exists_of_isObject (shape.trans object)
    obtain ⟨lowered', rfl⟩ := Json.exists_of_isObject (shape'.trans object')
    obtain ⟨conditions, rfl⟩ := Json.exists_of_isObject object
    obtain ⟨others, rfl⟩ := Json.exists_of_isObject object'
    refine retains_joined fun operator member => Option.not_isSome_iff_eq_none.mp fun member' => ?_
    -- An operator of both would stand for a condition of each.
    obtain ⟨name, operand, given, stands⟩ :=
      exists_targetKey_of_entryStep rfl plainId (undottedId _ rfl) stepId member
    obtain ⟨name', operand', given', stands'⟩ :=
      exists_targetKey_of_entryStep rfl plainObjectId (undottedObjectId _ rfl) stepObjectId member'
    exact apart _ _ rfl rfl operator _ _ _ _ given given' stands stands'
  · intro literals
    refine Edit.joined_of_literal ?_
    rwa [shape, shape']

/-! ### Not the first project -/

/-- Asks for another local id than `1`. -/
def notFirst : Object := .singleton "notEqualTo" (.str "UHJvamVjdDox")

/-- Asks for the local id `2`. -/
def isSecond : Object := .singleton "equalTo" (.str "2")

/-- Asks for projects with another local id than `1`, and says more about local ids. -/
def notFirstAnd (objectId : Json) : Object :=
  .ofList [("id", .obj notFirst), ("objectId", objectId)]

theorem undotted_notFirst : Undotted (.obj notFirst) := by
  rintro _ ⟨⟩
  decide

/-- The two conditions state different operators, and both operators are kept. -/
theorem lower_notFirstAnd_object :
    let run (filter : Object) := (lower (.of projects .relay {}) "Project" (.obj filter)).result
    let notOne : Object := .singleton "$ne" (.str "1")
    let two : Object := .singleton "$eq" (.str "2")
    TargetsApart (.obj notFirst) (.obj isSecond) ∧
      run (notFirstAnd (.obj isSecond)) =
        .ok (.obj (.singleton "objectId" (.obj (notOne ∪ two)))) ∧
      Retains (.obj (notOne ∪ two)) (.obj notOne) ∧ Retains (.obj (notOne ∪ two)) (.obj two) := by
  intro run notOne two
  have undotted : Undotted (.obj isSecond) := by
    rintro _ ⟨⟩
    decide
  have apart : TargetsApart (.obj notFirst) (.obj isSecond) := by
    rintro _ _ ⟨⟩ ⟨⟩ operator name operand name' operand' given given' stands stands'
    obtain rfl : name = "notEqualTo" := by
      by_contra ne
      rw [notFirst, Dict.get?_singleton, if_neg ne] at given
      cases given
    obtain rfl : name' = "equalTo" := by
      by_contra ne
      rw [isSecond, Dict.get?_singleton, if_neg ne] at given'
      cases given'
    exact absurd (stands.trans stands'.symm) (by decide)
  have whole : run (notFirstAnd (.obj isSecond)) =
      .ok (.obj (.singleton "objectId" (.obj (notOne ∪ two)))) := rfl
  have alone : run (.singleton idField (.obj notFirst)) =
      .ok (.obj (.singleton objectIdKey (.obj notOne))) := rfl
  have alone' : run (.singleton objectIdKey (.obj isSecond)) =
      .ok (.obj (.singleton objectIdKey (.obj two))) := rfl
  obtain ⟨_, first, second, ⟨⟩, runFirst, runSecond, -, -, -, retained, -⟩ :=
    lower_ids projects .relay {} (by decide) rfl rfl rfl rfl undotted_notFirst undotted apart _
      whole
  cases alone.symm.trans runFirst
  cases alone'.symm.trans runSecond
  exact ⟨apart, whole, retained rfl rfl⟩

/-- A literal under `objectId` replaces the condition under `id`. -/
theorem lower_notFirstAnd_literal :
    let run (filter : Object) := (lower (.of projects .relay {}) "Project" (.obj filter)).result
    let notOne : Object := .singleton "$ne" (.str "1")
    projects.reference? "Project" idField = none ∧
      projects.reference? "Project" objectIdKey = none ∧
      Undotted (.obj notFirst) ∧ Undotted (.str "2") ∧
      TargetsApart (.obj notFirst) (.str "2") ∧
      run (.singleton "id" (.obj notFirst)) = .ok (.obj (.singleton "objectId" (.obj notOne))) ∧
      run (notFirstAnd (.str "2")) = .ok (.obj (.singleton "objectId" (.str "2"))) ∧
      ¬ Retains (.str "2") (.obj notOne) := by
  refine ⟨rfl, rfl, undotted_notFirst, nofun, nofun, rfl, rfl, fun retained => ?_⟩
  obtain ⟨_, ⟨⟩, -⟩ := retained .notEqualTo (.str "1") rfl

end Lowering

end FilterQuery
