import FilterQuery.Proofs.Dict
import FilterQuery.Proofs.Lowering.Edits
import FilterQuery.Proofs.Lowering.Noninterference
import FilterQuery.Proofs.Lowering.Steps

/-!
# Entries side by side

The entries of a filter are lowered one by one, and none of them sees another one. So a filter
that is put together from two filters without a common key has a query exactly if both have one,
and it fails with the error of the first entry that fails on its own (`lower_union`).

In the query the entries do meet: an entry of one filter may change a key that an entry of the other
one changes as well. What is built under a key depends on the edits of that key alone, so where the
queries of the two filters have no common key, neither filter changes what the other one builds
(`Edit.get?_build_union`).
-/

namespace FilterQuery

/-- Elements that give nothing can be left out. -/
private theorem flatMap_filter_of_eq_nil {α β : Type} {keep : α → Bool} {f : α → List β}
    {xs : List α} (nothing : ∀ x ∈ xs, ¬ keep x → f x = []) :
    (xs.filter keep).flatMap f = xs.flatMap f := by
  induction xs with
  | nil => rfl
  | cons x xs ih =>
    obtain ⟨head, tail⟩ := List.forall_mem_cons.mp nothing
    rw [List.filter_cons, List.flatMap_cons, ← ih tail]
    split
    · rw [List.flatMap_cons]
    · next out => rw [head out, List.nil_append]

/-- What is built under a key, from edits that belong to the entries of two dictionaries without a
common key, is what the entries of the first build, if those of the second leave the key alone. -/
theorem Edit.get?_build_union {a b : Object} (disjoint : a.Disjoint b)
    (edits : String × Json → List Edit) {key : String}
    (free : ∀ edit ∈ b.toList.flatMap edits, edit.key ≠ key) :
    (build ((a ∪ b).toList.flatMap edits)).get? key =
      (build (a.toList.flatMap edits)).get? key := by
  let own (entry : String × Json) : List Edit := (edits entry).filter (·.key = key)
  have nothing : ∀ entry ∈ (a ∪ b).toList, ¬ a.contains entry.1 → own entry = [] := by
    intro entry mem outside
    have second : entry ∈ b.toList := by
      refine (disjoint.mem_toList_union.mp mem).resolve_left fun first => outside ?_
      exact Option.isSome_of_mem (Dict.mem_toList.mp first)
    refine List.filter_eq_nil_iff.mpr fun edit mem => ?_
    simpa using free edit (List.mem_flatMap.mpr ⟨entry, second, mem⟩)
  rw [get?_build, List.filter_flatMap, ← flatMap_filter_of_eq_nil nothing,
    disjoint.filter_toList_union, ← List.filter_flatMap, ← get?_build]

/-- What is built under a key, from edits that belong to the entries of a dictionary, is what two
entries build one after the other, if those of all other names leave the key alone. -/
theorem Edit.get?_build_of_both {d : Object} {first second : String} {a b : Json}
    (lt : first < second) (ha : d.get? first = some a) (hb : d.get? second = some b)
    (edits : String × Json → List Edit) {key : String}
    (only : ∀ name value, d.get? name = some value → ∀ edit ∈ edits (name, value),
      edit.key = key → name = first ∨ name = second) :
    (build (d.toList.flatMap edits)).get? key =
      (build (edits (first, a) ++ edits (second, b))).get? key := by
  let own (entry : String × Json) : List Edit := (edits entry).filter (·.key = key)
  let keep (entry : String × Json) : Bool := entry.1 = first ∨ entry.1 = second
  have nothing : ∀ entry ∈ d.toList, ¬ keep entry → own entry = [] := by
    rintro ⟨name, value⟩ mem outside
    refine List.filter_eq_nil_iff.mpr fun edit given => ?_
    have noKey : edit.key ≠ key := fun eq =>
      outside (decide_eq_true (only name value (Dict.mem_toList.mp mem) edit given eq))
    simpa using noKey
  have kept : d.toList.filter keep = [(first, a), (second, b)] := by
    refine Dict.eq_of_pairwise_lt ((Dict.pairwise_toList d).filter _) ?_ fun entry => ?_
    · exact List.pairwise_pair.mpr lt
    · obtain ⟨name, value⟩ := entry
      have distinct : first ≠ second := fun eq => String.lt_irrefl second (eq ▸ lt)
      rw [List.mem_filter, Dict.mem_toList, List.mem_pair, decide_eq_true_iff]
      constructor
      · rintro ⟨found, rfl | rfl⟩
        · exact .inl (by rw [Option.some.inj (found.symm.trans ha)])
        · exact .inr (by rw [Option.some.inj (found.symm.trans hb)])
      · rintro (⟨⟨⟩⟩ | ⟨⟨⟩⟩)
        · exact ⟨ha, .inl rfl⟩
        · exact ⟨hb, .inr rfl⟩
  rw [get?_build, List.filter_flatMap, ← flatMap_filter_of_eq_nil nothing, kept,
    get?_build (_ ++ _), List.filter_append, List.flatMap_cons, List.flatMap_cons, List.flatMap_nil,
    List.append_nil]

namespace Lowering

variable {cx : Context} {below : Below} {levels : Nat} {cls : String} {a b filter : Object}
  {error : LoweringError}

/-! ### Queries -/

/-- A filter that is put together from two has a query exactly if both have one. -/
theorem exists_result_filterAt_union (disjoint : a.Disjoint b) :
    (∃ query, (filterAt cx levels cls (a ∪ b)).result = .ok query) ↔
      (∃ query, (filterAt cx levels cls a).result = .ok query) ∧
        ∃ query, (filterAt cx levels cls b).result = .ok query := by
  cases levels with
  | zero => simp [filterAt_zero]
  | succ levels =>
    have each (filter : Object) :
        (∃ query, (filterAt cx (levels + 1) cls filter).result = .ok query) ↔
          ∀ entry ∈ filter.toList, ∃ edits,
            (entryStep (belowAt cx levels) cls entry.1 entry.2).result = .ok edits := by
      rw [filterAt_succ]
      constructor
      · rintro ⟨query, h⟩
        exact (result_filterStep_eq_ok_iff.mp h).1
      · exact fun succeed => ⟨_, result_filterStep_eq_ok_iff.mpr ⟨succeed, rfl⟩⟩
    simp only [each, disjoint.mem_toList_union, or_imp, forall_and]

/-- **Queries side by side.** Two filters without a common key, whose queries have no common key
either, have the queries together that they have on their own. -/
theorem result_filterAt_union (disjoint : a.Disjoint b) {a' b' : Object}
    (ha : (filterAt cx levels cls a).result = .ok a')
    (hb : (filterAt cx levels cls b).result = .ok b') (apart : a'.Disjoint b') :
    (filterAt cx levels cls (a ∪ b)).result = .ok (a' ∪ b') := by
  obtain ⟨both, h⟩ := (exists_result_filterAt_union disjoint).mpr ⟨⟨a', ha⟩, b', hb⟩
  rw [h]
  cases levels with
  | zero => cases h
  | succ levels =>
    rw [filterAt_succ] at ha hb h
    obtain ⟨-, rfl⟩ := result_filterStep_eq_ok_iff.mp ha
    obtain ⟨-, rfl⟩ := result_filterStep_eq_ok_iff.mp hb
    obtain ⟨-, rfl⟩ := result_filterStep_eq_ok_iff.mp h
    -- A key that is not in a query is changed by no edit of its filter.
    have free {edits : List Edit} {key : String} (absent : (Edit.build edits).get? key = none) :
        ∀ edit ∈ edits, edit.key ≠ key := by
      intro edit mem eq
      have present := Edit.isSome_get?_build_iff.mpr ⟨edit, mem, eq⟩
      rw [absent] at present
      cases present
    refine congrArg Except.ok (Dict.ext_get? fun key => ?_)
    rw [Dict.get?_union]
    rcases apart key with absent | absent
    · rw [absent, Option.or_none, disjoint.union_comm]
      exact Edit.get?_build_union disjoint.symm _ (free absent)
    · rw [absent, Option.none_or]
      exact Edit.get?_build_union disjoint _ (free absent)

/-! ### Failures -/

/-- **The first failure.** A filter fails exactly if an entry fails on its own, with the error of
the one with the smallest key. -/
theorem result_filterStep_eq_error_iff_singleton :
    (filterStep below cls filter).result = .error error ↔
      ∃ key value, filter.get? key = some value ∧
        (∀ smaller < key, ∀ other, filter.get? smaller = some other →
          ∃ query, (filterStep below cls (.singleton smaller other)).result = .ok query) ∧
        (filterStep below cls (.singleton key value)).result = .error error := by
  have fails (key : String) (value : Json) :
      (filterStep below cls (.singleton key value)).result = .error error ↔
        (entryStep below cls key value).result = .error error := by
    rw [result_filterStep_singleton, Except.map_eq_error_iff]
  have succeeds (key : String) (value : Json) :
      (∃ query, (filterStep below cls (.singleton key value)).result = .ok query) ↔
        ∃ edits, (entryStep below cls key value).result = .ok edits := by
    simp only [result_filterStep_singleton, Except.map_eq_ok_iff]
    exact ⟨fun ⟨_, edits, h, _⟩ => ⟨edits, h⟩, fun ⟨edits, h⟩ => ⟨_, edits, h, rfl⟩⟩
  simp only [fails, succeeds]
  exact result_filterStep_eq_error_iff.trans (Dict.exists_first_iff
    (P := fun key value => ∃ edits, (entryStep below cls key value).result = .ok edits)
    (Q := fun key value => (entryStep below cls key value).result = .error error))

/-- Where no level may be entered every filter fails, the empty one too. -/
theorem result_filterAt_eq_error_iff :
    (filterAt cx levels cls filter).result = .error error ↔
      (levels = 0 ∧ filter = ∅ ∧ error = .depthExceeded cx.limit) ∨
        ∃ key value, filter.get? key = some value ∧
          (∀ smaller < key, ∀ other, filter.get? smaller = some other →
            ∃ query, (filterAt cx levels cls (.singleton smaller other)).result = .ok query) ∧
          (filterAt cx levels cls (.singleton key value)).result = .error error := by
  cases levels with
  | zero =>
    simp only [filterAt_zero, Run.result_fail, Except.error.injEq, reduceCtorEq, exists_false,
      true_and]
    constructor
    · rintro rfl
      rcases entries : filter.toList with _ | ⟨entry, rest⟩
      · exact .inl ⟨Dict.ext_toList entries, rfl⟩
      · obtain ⟨key, value, found, first, -⟩ := Dict.exists_first_iff
          (P := fun _ _ => False) (Q := fun _ _ => True)
          |>.mp ⟨[], entry, rest, entries, nofun, trivial⟩
        exact .inr ⟨key, value, found, first, rfl⟩
    · rintro (⟨-, rfl⟩ | ⟨_, _, -, -, eq⟩)
      · rfl
      · exact eq
  | succ levels =>
    simp only [filterAt_succ, Nat.succ_ne_zero, false_and, false_or]
    exact result_filterStep_eq_error_iff_singleton

/-! ### Independence -/

/-- **Independence.** A filter that is put together from two filters without a common key has a
query exactly if both have one; where the two queries have no common key, it is the query that is
put together from them. The filter fails exactly if one of its entries fails on its own, with the
error of the first that does. Options without any level pass no check; with them even the empty
filter fails. -/
theorem lower_union (schema : Schema) (codec : Codec) (options : Options) (cls : String)
    (disjoint : a.Disjoint b) :
    let run (filter : Object) := (lower (.of schema codec options) cls (.obj filter)).result
    ((∃ query, run (a ∪ b) = .ok query) ↔
        (∃ query, run a = .ok query) ∧ ∃ query, run b = .ok query) ∧
      (∀ a' b' : Object, run a = .ok (.obj a') → run b = .ok (.obj b') → a'.Disjoint b' →
        run (a ∪ b) = .ok (.obj (a' ∪ b'))) ∧
      ∀ error, run (a ∪ b) = .error error ↔
        (options.maxDepth = 0 ∧ a ∪ b = ∅ ∧ error = .depthExceeded 0) ∨
          ∃ key value, (a ∪ b).get? key = some value ∧
            (∀ smaller < key, ∀ other, (a ∪ b).get? smaller = some other →
              ∃ query, run (.singleton smaller other) = .ok query) ∧
            run (.singleton key value) = .error error := by
  intro run
  let cx : Context := .of schema codec options
  have whole (filter : Object) : run filter =
      Json.obj <$> (filterAt cx options.maxDepth cls filter).result :=
    result_lower_obj cx cls filter
  have ok (filter query : Object) : run filter = .ok (.obj query) ↔
      (filterAt cx options.maxDepth cls filter).result = .ok query := by
    simp [whole, Except.map_eq_ok_iff]
  have exists_ok (filter : Object) : (∃ query, run filter = .ok query) ↔
      ∃ query, (filterAt cx options.maxDepth cls filter).result = .ok query := by
    simp [whole, Except.map_eq_ok_iff]
  have fails (filter : Object) (error : LoweringError) : run filter = .error error ↔
      (filterAt cx options.maxDepth cls filter).result = .error error := by
    rw [whole, Except.map_eq_error_iff]
  refine ⟨?_, fun a' b' ha hb apart => ?_, fun error => ?_⟩
  · simp only [exists_ok]
    exact exists_result_filterAt_union disjoint
  · rw [ok] at ha hb ⊢
    exact result_filterAt_union disjoint ha hb apart
  · simp only [exists_ok, fails]
    refine result_filterAt_eq_error_iff.trans (or_congr_left (and_congr_right fun none => ?_))
    have limit : cx.limit = 0 := none
    rw [limit]

/-! ### A project in two filters -/

/-- Asks for the project with the local id `1`, if its title in English is `Home`. -/
def homeProject : Object :=
  .ofList [("id", .obj (.singleton "equalTo" (.str "UHJvamVjdDox"))),
    ("title", .obj (.singleton "equalTo"
      (.obj (.ofList [("key", .str "en"), ("value", .str "Home")]))))]

/-- Asks for projects with a note, and not with the title `Work`. -/
def notedProject : Object :=
  .ofList [("AND", .arr [.obj (.singleton "title" (.obj (.singleton "notEqualTo" (.str "Work"))))]),
    ("note", .obj (.singleton "exists" (.bool true)))]

/-- The entries of the two filters interleave, and three of them move to other keys, in an order
that is not that of the entries. Still their queries stand side by side. -/
theorem lower_homeProject_union_notedProject :
    let run (filter : Object) := (lower (.of projects .relay {}) "Project" (.obj filter)).result
    let home : Object := .ofList [("objectId", .obj (.singleton "$eq" (.str "1"))),
      ("title.en", .obj (.singleton "$eq" (.str "Home")))]
    let noted : Object := .ofList [
      ("$and", .arr [.obj (.singleton "title" (.obj (.singleton "$ne" (.str "Work"))))]),
      ("note", .obj (.singleton "$exists" (.bool true)))]
    homeProject.Disjoint notedProject ∧ home.Disjoint noted ∧
      run homeProject = .ok (.obj home) ∧ run notedProject = .ok (.obj noted) ∧
        run (homeProject ∪ notedProject) = .ok (.obj (home ∪ noted)) := by
  intro run home noted
  have disjoint : homeProject.Disjoint notedProject := by decide
  have apart : home.Disjoint noted := by decide
  have runHome : run homeProject = .ok (.obj home) := rfl
  have runNoted : run notedProject = .ok (.obj noted) := rfl
  obtain ⟨-, together, -⟩ := lower_union projects .relay {} "Project" disjoint
  exact ⟨disjoint, apart, runHome, runNoted, together home noted runHome runNoted apart⟩

end Lowering

end FilterQuery
