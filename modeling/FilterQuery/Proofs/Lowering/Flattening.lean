import FilterQuery.Proofs.Lowering.DottedPaths

/-!
# Fields with pairs

A field with a pair among its conditions leaves nothing under its own key, and whatever its other
conditions become is dropped. What the field leaves is one object for each path among its pairs,
under the dotted path. Each pair of the path puts its value there, untouched, under the key of its
condition; of two conditions with one key, such as an operator and its target, the one with the
greater name decides (`lower_paired`).
-/

namespace FilterQuery

namespace Lowering

/-- Under a name, the conditions of a field have a pair of the path and the value. -/
def PairAt (operands : Object) (name path : String) (value : Json) : Prop :=
  ∃ members, operands.get? name = some (.obj members) ∧ PathPair.Written members path value

/-- What an operand states for a path, if it is a pair of this path: the value, under the key of the
condition. -/
def statement (path : String) (entry : String × Json) : Option (String × Json) :=
  ((Operand.ofJson entry.2).pair?.filter (·.path = path)).map fun pair =>
    (targetKey entry.1, pair.value)

section Pairs

variable {field : String} {operands : Object} {name path target : String} {operand value : Json}

theorem exists_pair?_iff :
    (∃ pair, (Operand.ofJson operand).pair? = some pair ∧ pair.path = path ∧ pair.value = value) ↔
      ∃ members, operand = .obj members ∧ PathPair.Written members path value := by
  constructor
  · rintro ⟨pair, is, rfl, rfl⟩
    cases operand with
    | obj members =>
      refine ⟨members, rfl, PathPair.written_of_ofObject? ?_⟩
      rwa [← Operand.pair?_ofObject]
    | _ => cases is
  · rintro ⟨members, rfl, key, nonempty, holds, notNull⟩
    exact exists_pair_of_members key nonempty holds notNull

theorem pairAt_iff :
    PairAt operands name path value ↔ ∃ operand pair, operands.get? name = some operand ∧
      (Operand.ofJson operand).pair? = some pair ∧ pair.path = path ∧ pair.value = value := by
  constructor
  · rintro ⟨members, found, written⟩
    obtain ⟨pair, is⟩ := exists_pair?_iff.mpr ⟨members, rfl, written⟩
    exact ⟨_, pair, found, is⟩
  · rintro ⟨operand, pair, found, is⟩
    obtain ⟨members, rfl, written⟩ := exists_pair?_iff.mp ⟨pair, is⟩
    exact ⟨members, found, written⟩

theorem statement_eq_some_iff :
    statement path (name, operand) = some (target, value) ↔ targetKey name = target ∧
      ∃ pair, (Operand.ofJson operand).pair? = some pair ∧ pair.path = path ∧
        pair.value = value := by
  simp only [statement, Option.map_eq_some_iff, Option.filter_eq_some_iff, decide_eq_true_eq,
    Prod.mk.injEq]
  constructor
  · rintro ⟨pair, ⟨is, leads⟩, key, holds⟩
    exact ⟨key, pair, is, leads, holds⟩
  · rintro ⟨key, pair, is, leads, holds⟩
    exact ⟨pair, ⟨is, leads⟩, key, holds⟩

/-- The edits of pairs that lead to a dotted path are those that merge what is stated for the
path. -/
theorem filter_pathEdits (named : field ≠ "") (operands : Object) (path : String) :
    (pathEdits field operands).filter (·.key = field ++ "." ++ path) =
      (operands.toList.filterMap (statement path)).map fun member =>
        .merge (field ++ "." ++ path) (.singleton member.1 member.2) := by
  rw [pathEdits, List.filter_flatMap, List.filterMap_eq_flatMap_toList, List.map_flatMap]
  refine List.flatMap_congr fun entry _ => ?_
  rw [pairEdits, pairUnder?_of_ne named, statement]
  rcases (Operand.ofJson entry.2).pair? with _ | pair
  · rfl
  · by_cases leads : pair.path = path
    · simp [Edit.key, leads, Option.filter]
    · simp [Edit.key, leads, Option.filter]

/-- **Dotted paths.** What the pairs of a path build under the dotted path. -/
theorem get?_build_pathEdits (named : field ≠ "") (stated : PairAt operands name path value) :
    (Edit.build (pathEdits field operands)).get? (field ++ "." ++ path) =
      some (.obj (.ofList (operands.toList.filterMap (statement path)))) := by
  obtain ⟨operand, pair, found, is⟩ := pairAt_iff.mp stated
  have given : (targetKey name, value) ∈ operands.toList.filterMap (statement path) :=
    List.mem_filterMap.mpr ⟨(name, operand), Dict.mem_toList.mpr found,
      statement_eq_some_iff.mpr ⟨rfl, pair, is⟩⟩
  rw [Edit.get?_build, filter_pathEdits named, Edit.get?_build_merges (List.ne_nil_of_mem given)]

/-- The condition with the greatest name decides what is stated under a key. -/
theorem get?_ofList_statements_eq_some_iff :
    (Dict.ofList (operands.toList.filterMap (statement path))).get? target = some value ↔
      ∃ name, PairAt operands name path value ∧ targetKey name = target ∧
        ∀ later > name, ∀ other, PairAt operands later path other → targetKey later ≠ target := by
  simp only [Dict.get?_ofList_filterMap_eq_some_iff, ne_eq, statement_eq_some_iff, pairAt_iff]
  constructor
  · rintro ⟨name, operand, found, none, key, pair, is⟩
    refine ⟨name, ⟨operand, pair, found, is⟩, key, ?_⟩
    rintro later greater value' ⟨operand', pair', found', is'⟩ key'
    exact none later greater operand' found' value' ⟨key', pair', is'⟩
  · rintro ⟨name, ⟨operand, pair, found, is⟩, key, none⟩
    refine ⟨name, operand, found, ?_, key, pair, is⟩
    rintro later greater operand' found' value' ⟨key', pair', is'⟩
    exact none later greater value' ⟨operand', pair', found', is'⟩ key'

/-- The keys of what pairs build are their dotted paths. -/
theorem mem_keys_build_pathEdits_iff (named : field ≠ "") {key : String} :
    key ∈ (Edit.build (pathEdits field operands)).keys ↔
      ∃ name path value, PairAt operands name path value ∧ key = field ++ "." ++ path := by
  simp only [Dict.mem_keys, Edit.isSome_get?_build_iff, mem_pathEdits, pairAt_iff,
    pairUnder?_of_ne named]
  constructor
  · rintro ⟨_, ⟨name, operand, pair, found, is, rfl⟩, own⟩
    exact ⟨name, pair.path, pair.value, ⟨operand, pair, found, is, rfl, rfl⟩, own.symm⟩
  · rintro ⟨name, _, _, ⟨operand, pair, found, is, rfl, rfl⟩, rfl⟩
    exact ⟨_, ⟨name, operand, pair, found, is, rfl⟩, rfl⟩

end Pairs

/-- **Fields with pairs.** If a field with a pair among its conditions has a query on its own, the
keys of the query are the dotted paths of its pairs, and the field is none of them. Each path has an
object with the values of its pairs, each under the key of its condition; where the conditions of
several pairs share a key, the greatest name decides. -/
theorem lower_paired (schema : Schema) (codec : Codec) (options : Options) {cls field : String}
    {operands : Object} (named : field ≠ "") (noName : Combinator.ofName? field = none)
    (paired : ∃ name path value, PairAt operands name path value) :
    ∀ output,
      (lower (.of schema codec options) cls (.obj (.singleton field (.obj operands)))).result =
          .ok output →
        ∃ query : Object, output = .obj query ∧
          (∀ key, key ∈ query.keys ↔
            ∃ name path value, PairAt operands name path value ∧ key = field ++ "." ++ path) ∧
          field ∉ query.keys ∧
          ∀ name path value, PairAt operands name path value →
            ∃ members : Object, query.get? (field ++ "." ++ path) = some (.obj members) ∧
              ∀ target value', members.get? target = some value' ↔
                ∃ name', PairAt operands name' path value' ∧ targetKey name' = target ∧
                  ∀ later > name', ∀ other, PairAt operands later path other →
                    targetKey later ≠ target := by
  intro output h
  obtain ⟨levels, enough⟩ := two_le_of_lower_field noName h
  rw [result_lower_field noName enough] at h
  obtain ⟨edits, step, rfl⟩ := Except.map_eq_ok_iff.mp h
  have some : pathEdits field operands ≠ [] := by
    obtain ⟨name, path, value, stated⟩ := paired
    obtain ⟨operand, pair, found, is, -⟩ := pairAt_iff.mp stated
    exact List.ne_nil_of_mem (mem_pathEdits.mpr
      ⟨name, operand, pair, found, (pairUnder?_of_ne named _).trans is, rfl⟩)
  obtain ⟨-, rfl⟩ | ⟨none, -⟩ := edits_of_fieldStep step
  · refine ⟨_, rfl, fun key => mem_keys_build_pathEdits_iff named, fun own => ?_,
      fun name path value stated => ⟨_, get?_build_pathEdits named stated,
        fun target value' => get?_ofList_statements_eq_some_iff⟩⟩
    obtain ⟨-, path, -, -, eq⟩ := (mem_keys_build_pathEdits_iff named).mp own
    exact absurd (lt_dotted field path) (eq ▸ String.lt_irrefl _)
  · exact absurd none some

/-! ### Tasks by their dotted paths -/

/-- A pair with a path and a value. -/
def writtenPair (path : String) (value : Json) : Json :=
  .obj (.ofList [("key", .str path), ("value", value)])

/-- Conditions on the tasks of a project. Two of them state equality for one path, one with a value
that reads as a condition itself; another says whether there is a task at all. -/
def taskPaths : Object :=
  .ofList [("$eq", writtenPair "state" (.str "open")),
    ("equalTo", writtenPair "state" (.obj (.singleton "equalTo" (.str "done")))),
    ("notEqualTo", writtenPair "state" (.str "late")),
    ("exists", .bool true), ("lessThan", writtenPair "owner.rank" (.str "3"))]

/-- The operator comes after its target, so its value stands, as it is. Of the other condition
nothing is left, and the reference has no subquery. -/
theorem lower_taskPaths :
    let query : Object := .ofList [
      ("tasks.state", .obj (.ofList [("$eq", .obj (.singleton "equalTo" (.str "done"))),
        ("$ne", .str "late")])),
      ("tasks.owner.rank", .obj (.singleton "$lt" (.str "3")))]
    (lower (.of projects .relay {}) "Project" (.obj (.singleton "tasks" (.obj taskPaths)))).result =
        .ok (.obj query) ∧
      "tasks" ≠ "" ∧ Combinator.ofName? "tasks" = none ∧
      PairAt taskPaths "$eq" "state" (.str "open") ∧ "tasks" ∉ query.keys ∧
      ∃ members : Object, query.get? "tasks.state" = some (.obj members) ∧
        members.get? "$eq" = some (.obj (.singleton "equalTo" (.str "done"))) := by
  intro query
  have whole : (lower (.of projects .relay {}) "Project"
      (.obj (.singleton "tasks" (.obj taskPaths)))).result = .ok (.obj query) := rfl
  have raw : PairAt taskPaths "$eq" "state" (.str "open") := ⟨_, rfl, rfl, by decide, rfl, nofun⟩
  obtain ⟨_, ⟨⟩, -, gone, each⟩ :=
    lower_paired projects .relay {} (by decide) rfl ⟨_, _, _, raw⟩ _ whole
  obtain ⟨members, there, decides⟩ := each _ _ _ raw
  refine ⟨whole, by decide, rfl, raw, gone, members, there, ?_⟩
  cases there
  rfl

end Lowering

end FilterQuery
