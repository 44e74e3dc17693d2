import FilterQuery.Proofs.Dict
import FilterQuery.Proofs.Lowering.Edits
import FilterQuery.Proofs.Lowering.Levels
import FilterQuery.Proofs.Lowering.Noninterference
import FilterQuery.Proofs.Lowering.Steps

/-!
# Combinators among their siblings

Whatever else a filter asks for, what stands under the target of a combinator in its query is what
the branches of the combinator have as queries on their own, with one level less
(`lower_combinator`).

Nothing else is written there afterwards. An entry that comes later has a greater key than the
combinator, and so a greater key than its target, whose dollar sign is before the capital letters
(`Combinator.target_lt_name`); the other keys that such an entry can change are no targets either
(`key_ne_target`).
-/

namespace FilterQuery

namespace Combinator

/-- Combinators with the same target are the same. -/
theorem target_injective : Function.Injective target := by
  intro first second
  cases first <;> cases second <;> decide

/-- A target comes before the name. -/
theorem target_lt_name (combinator : Combinator) : combinator.target < combinator.name := by
  cases combinator <;> decide

/-- A target is not the key of the conditions on local ids. -/
theorem target_ne_objectIdKey (combinator : Combinator) :
    combinator.target ≠ Lowering.objectIdKey := by
  cases combinator <;> decide

/-- A target is no dotted path. -/
theorem target_ne_dotted (combinator : Combinator) (field path : String) :
    combinator.target ≠ field ++ "." ++ path :=
  Lowering.ne_dotted (by cases combinator <;> decide) field path

end Combinator

namespace Lowering

variable {cx : Context} {levels : Nat} {cls key : String} {combinator : Combinator}
  {filter query : Object} {operand value : Json}

/-- An entry that comes after a combinator does not change what is under the target. -/
theorem key_ne_target (later : combinator.name < key) {edits : List Edit}
    (h : (entryStep (belowAt cx levels) cls key value).result = .ok edits) :
    ∀ edit ∈ edits, edit.key ≠ combinator.target := by
  intro edit mem eq
  rcases key_of_entryStep h edit mem with ⟨other, name, target⟩ | ⟨-, own | ⟨path, dotted⟩⟩
  · obtain rfl := Combinator.target_injective (target.symm.trans eq)
    rw [Combinator.name_of_ofName? name] at later
    exact String.lt_irrefl key later
  · rw [own, outputKey] at eq
    split at eq
    · exact combinator.target_ne_objectIdKey eq.symm
    · subst eq
      exact String.lt_asymm later combinator.target_lt_name
  · exact combinator.target_ne_dotted key path (eq.symm.trans dotted)

/-- **Combinators in queries.** What the operand of a combinator becomes stands under the target. -/
theorem get?_target_of_filterStep (entry : filter.get? combinator.name = some operand)
    (h : (filterStep (belowAt cx levels) cls filter).result = .ok query) :
    ∃ lowered, (branches (belowAt cx levels) cls combinator operand).result = .ok lowered ∧
      query.get? combinator.target = some lowered := by
  obtain ⟨succeed, rfl⟩ := result_filterStep_eq_ok_iff.mp h
  obtain ⟨edits, hedits⟩ := succeed (combinator.name, operand) (Dict.mem_toList.mpr entry)
  have set := result_entryStep_of_some combinator.ofName?_name (belowAt cx levels) cls operand
  obtain ⟨lowered, hlowered, rfl⟩ := Except.map_eq_ok_iff.mp (set.symm.trans hedits)
  refine ⟨lowered, hlowered, Edit.get?_build_of_greatest entry (entryEdits_of_ok hedits) ?_⟩
  intro later greater value _ edit mem
  exact key_ne_target greater (result_entryStep_of_mem mem) edit mem

/-! ### Branches -/

/-- **Distribution.** A list of branches becomes the list of what they become on their own under the
limit of the levels that are left. -/
theorem forall₂_of_result_branches {items : List Json} {lowered : Json}
    (h : (branches (belowAt cx levels) cls combinator (.arr items)).result = .ok lowered) :
    ∃ outs, lowered = .arr outs ∧ List.Forall₂ (fun branch out =>
      (lower { cx with limit := levels } cls branch).result = .ok out) items outs := by
  rw [result_branches_arr] at h
  obtain ⟨outs, houts, rfl⟩ := Except.map_eq_ok_iff.mp h
  refine ⟨outs, rfl, (Except.mapM_eq_ok_iff.mp houts).imp fun branch out => ?_⟩
  exact value_belowAt_eq_ok_iff.mp

/-- **Combinators.** If a filter with a combinator has a query, then the query has under the target
of the combinator, for a list of branches, what each branch becomes on its own with one level less,
where a branch that is no object stays as it is; another operand is there as it was. Whatever the
other entries of the filter are, the filter fails if a branch fails on its own. -/
theorem lower_combinator (schema : Schema) (codec : Codec) (options : Options) (cls : String)
    (entry : filter.get? combinator.name = some operand) :
    let rest : Options := { options with maxDepth := options.maxDepth - 1 }
    let whole := (lower (.of schema codec options) cls (.obj filter)).result
    let alone (branch : Json) := (lower (.of schema codec rest) cls branch).result
    (∀ result, whole = .ok result → ∃ query : Object, result = .obj query ∧
        (∀ items, operand = .arr items → ∃ outs,
          query.get? combinator.target = some (.arr outs) ∧
            List.Forall₂ (fun branch out => alone branch = .ok out ∧
              ((∀ members, branch ≠ .obj members) → out = branch)) items outs) ∧
        ((∀ items, operand ≠ .arr items) → query.get? combinator.target = some operand)) ∧
      ∀ items, operand = .arr items → ∀ branch ∈ items, ∀ error, alone branch = .error error →
        ∃ error', whole = .error error' := by
  intro rest whole alone
  obtain ⟨policy, maxDepth⟩ := options
  cases maxDepth with
  | zero => exact ⟨nofun, fun _ _ _ _ _ _ => ⟨_, rfl⟩⟩
  | succ levels =>
    let cx : Context := .of schema codec ⟨policy, levels + 1⟩
    have step : whole = Json.obj <$> (filterStep (belowAt cx levels) cls filter).result :=
      result_lower_obj cx cls filter
    constructor
    · intro result h
      obtain ⟨query, hquery, rfl⟩ := Except.map_eq_ok_iff.mp (step.symm.trans h)
      obtain ⟨lowered, hlowered, under⟩ := get?_target_of_filterStep entry hquery
      refine ⟨query, rfl, ?_, fun notList => ?_⟩
      · rintro items rfl
        obtain ⟨outs, rfl, each⟩ := forall₂_of_result_branches hlowered
        refine ⟨outs, under, each.imp fun branch out h => ⟨h, fun noObject => ?_⟩⟩
        rw [result_lower_of_ne_obj noObject] at h
        exact (Except.ok.inj h).symm
      · rw [result_branches_of_ne_arr notList] at hlowered
        rw [under, Except.ok.inj hlowered]
    · rintro items rfl branch mem error fails
      rcases hstep : (filterStep (belowAt cx levels) cls filter).result with error' | query
      · exact ⟨error', step.trans (congrArg _ hstep)⟩
      · -- Then each branch has a query on its own, and this one has none.
        obtain ⟨lowered, hlowered, -⟩ := get?_target_of_filterStep entry hstep
        obtain ⟨outs, -, each⟩ := forall₂_of_result_branches hlowered
        obtain ⟨out, succeeds⟩ :=
          Except.exists_of_mapM_eq_ok (Except.mapM_eq_ok_iff.mpr each) branch mem
        have same : Except.error error = .ok out := fails.symm.trans succeeds
        cases same

/-! ### A combinator with siblings -/

/-- The branches ask for the project with the local id `1`; the second is no filter. -/
def projectBranches : List Json :=
  [.obj (.singleton "id" (.obj (.singleton "equalTo" (.str "UHJvamVjdDox")))), .str "Home"]

/-- The branches, among entries whose keys are the target of the combinator, a field that moves to
another key, and a field that moves to a dotted path. -/
def amongSiblings : Object :=
  .ofList [("$and", .arr []), ("AND", .arr projectBranches), ("id", .str "UHJvamVjdDox"),
    ("title", .obj (.singleton "equalTo"
      (.obj (.ofList [("key", .str "en"), ("value", .str "Home")]))))]

/-- Three levels are just enough, and the first branch takes the two that are left for it. The entry
under the target is gone. -/
theorem lower_amongSiblings :
    let options : Options := { maxDepth := 3 }
    let core : Json := .obj (.singleton "objectId" (.obj (.singleton "$eq" (.str "1"))))
    amongSiblings.get? "AND" = some (.arr projectBranches) ∧
      ∃ query : Object,
        (lower (.of projects .relay options) "Project" (.obj amongSiblings)).result =
          .ok (.obj query) ∧
        query.get? "$and" = some (.arr [core, .str "Home"]) := by
  intro options core
  let query : Object := .ofList [("$and", .arr [core, .str "Home"]),
    ("objectId", .str "UHJvamVjdDox"), ("title.en", .obj (.singleton "$eq" (.str "Home")))]
  have entry : amongSiblings.get? Combinator.and.name = some (.arr projectBranches) := rfl
  have whole : (lower (.of projects .relay options) "Project" (.obj amongSiblings)).result =
      .ok (.obj query) := rfl
  have first : (lower (.of projects .relay { options with maxDepth := 2 }) "Project"
      (.obj (.singleton "id" (.obj (.singleton "equalTo" (.str "UHJvamVjdDox")))))).result =
        .ok core := rfl
  obtain ⟨distributes, -⟩ := lower_combinator projects .relay options "Project" entry
  obtain ⟨_, ⟨⟩, list, -⟩ := distributes _ whole
  obtain ⟨outs, under, each⟩ := list _ rfl
  obtain _ | ⟨⟨hfirst, -⟩, _ | ⟨⟨-, kept⟩, ⟨⟩⟩⟩ := each
  cases first.symm.trans hfirst
  cases kept nofun
  exact ⟨entry, query, whole, under⟩

end Lowering

end FilterQuery
