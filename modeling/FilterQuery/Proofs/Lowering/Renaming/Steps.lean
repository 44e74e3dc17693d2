import FilterQuery.Proofs.Lowering.Steps
import FilterQuery.Proofs.Lowering.Texts
import FilterQuery.Proofs.Schema

/-!
# Lowering as renaming

On a class without references, lowering a renameable filter is renaming its keys: the query is the
filter with each key sent to its target and each identifier of the class to its local id, and
nothing else (`lower_eq_rename`).

The steps of lowering yield the edits that rename, if what lies below is renamed wherever it is
applied to an object of the input (`Below.Renames`). An induction on the levels shows that it is
(`belowAt_renames`).
-/

namespace FilterQuery

namespace Lowering

/-! ### Steps -/

/-- **Levels below that rename.** What is lowered below is renamed, if it is an object of the
input. -/
structure Below.Renames (ids : String → String) (cls : String) (input : Json) (below : Below) :
    Prop where
  /-- Filters are renamed. -/
  filter : ∀ filter, Visited input .filter filter →
    (below.filter cls filter).Yields (.ofList (renameEntries ids cls filter))
  /-- Conditions are renamed. -/
  field : ∀ field key operands, Visited input (.conditions field) operands →
    (below.field cls field key operands).Yields
      [.merge (outputKey cls field key) (.ofList (renameConditions ids cls field operands))]

section Steps

variable {ids : String → String} {cls : String} {input : Json} {below : Below}

theorem Below.Renames.value (renames : below.Renames ids cls input) {value : Json}
    (visit : ∀ filter, value = .obj filter → Visited input .filter filter) :
    (below.value cls value).Yields (rename ids cls value) := by
  cases value with
  | obj filter =>
    rw [rename]
    exact (renames.filter filter (visit filter rfl)).map Json.obj
  | _ => exact Run.yields_pure _

theorem yields_branches (renames : below.Renames ids cls input) {filter : Object}
    (visit : Visited input .filter filter) {key : String} {combinator : Combinator}
    (name : Combinator.ofName? key = some combinator) {value : Json}
    (entry : filter.get? key = some value) :
    (branches below cls combinator value).Yields (renameEntry ids cls key value) := by
  unfold renameEntry
  rw [name]
  cases value with
  | arr items =>
    dsimp only
    rw [renameBranches_eq]
    refine Run.Yields.map (Run.yields_mapM fun item mem => ?_) Json.arr
    refine renames.value fun branch eq => ?_
    exact visit.branch name entry (eq ▸ mem)
  | _ => exact (Run.yields_emit (.branchesKept combinator)).bind (Run.yields_pure _)

/-- An entry of a filter becomes the edit that renames it. -/
theorem yields_entryStep (renames : below.Renames ids cls input) {filter : Object}
    (visit : Visited input .filter filter) {key : String} {value : Json}
    (entry : filter.get? key = some value) :
    (entryStep below cls key value).Yields [entryEdit ids cls key value] := by
  rcases name : Combinator.ofName? key with _ | combinator
  · cases value with
    | obj operands =>
      have edit : entryEdit ids cls key (.obj operands) =
          .merge (outputKey cls key key) (.ofList (renameConditions ids cls key operands)) := by
        unfold entryEdit
        rw [name]
      rw [entryStep, name, edit]
      exact renames.field key key operands (visit.field name entry)
    | _ =>
      unfold entryStep entryEdit renameEntry
      rw [name]
      dsimp only
      rw [Place.target_filter_of_none name]
      exact Run.yields_pure _
  · have edit : entryEdit ids cls key value =
        .set combinator.target (renameEntry ids cls key value) := by
      unfold entryEdit
      rw [name]
      dsimp only
      rw [Place.target_filter_of_some name]
    unfold entryStep
    rw [name, edit]
    exact (yields_branches renames visit name entry).bind (Run.yields_pure _)

/-- A filter is renamed. -/
theorem yields_filterStep (renames : below.Renames ids cls input) {filter : Object}
    (visit : Visited input .filter filter) (apart : Place.filter.Apart cls filter) :
    (filterStep below cls filter).Yields (.ofList (renameEntries ids cls filter)) := by
  let edits := filter.toList.map fun entry => entryEdit ids cls entry.1 entry.2
  have steps : (filter.toList.mapM fun entry => entryStep below cls entry.1 entry.2).Yields
      (filter.toList.map fun entry => [entryEdit ids cls entry.1 entry.2]) :=
    Run.yields_mapM fun entry mem => yields_entryStep renames visit (Dict.mem_toList.mp mem)
  have flat : (filter.toList.map fun entry => [entryEdit ids cls entry.1 entry.2]).flatten =
      edits := by
    rw [← List.flatMap_def, ← List.map_eq_flatMap]
  have build : Edit.build edits = .ofList (renameEntries ids cls filter) := by
    rw [renameEntries_eq]
    exact Edit.build_map_of_nodup (key_entryEdit ids cls) (written_entryEdit ids cls) apart
  refine steps.bind ?_
  rw [flat, build]
  exact Run.yields_pure _

/-- A condition becomes the edit that renames it. -/
theorem yields_part {cx : Context} {field : String} {operands : Object}
    (plain : cx.schema.reference? cls field = none) (renames : below.Renames ids cls input)
    (visit : Visited input (.conditions field) operands) (unpaired : Unpaired operands)
    (free : GeoFree operands) {name : String} {operand : Json}
    (entry : operands.get? name = some operand) :
    (part cx below cls field name (mapIdsUnder ids cls field operand)).Yields
      (.own [conditionEdit ids cls field name operand]) := by
  have pair : pairUnder? field (.ofJson (mapIdsUnder ids cls field operand)) = none := by
    rw [pairUnder?, pair?_ofJson_mapIdsUnder, unpaired name operand entry, ite_self]
  rw [part_of_plain pair plain]
  -- Nothing is encoded, so an object is found here only where the operand is one.
  rw [plainPart, encode_of_geoFree free entry]
  cases operand with
  | obj nested =>
    rw [mapIdsUnder_obj, conditionEdit]
    dsimp only
    split
    · next h =>
      subst h
      exact (renames.filter nested (visit.whereFilter entry)).bind (Run.yields_pure _)
    · next ne =>
      exact (renames.field name (targetKey name) nested (visit.nested ne entry)).bind
        (Run.yields_pure _)
  | _ =>
    unfold conditionEdit mapIdsUnder
    cases isIdField cls field <;> exact Run.yields_pure _

/-- The conditions of a field are renamed. -/
theorem yields_fieldStep {cx : Context} {field : String} {operands : Object}
    (plain : cx.schema.reference? cls field = none)
    (renames : below.Renames (localText cx.codec cls) cls input)
    (visit : Visited input (.conditions field) operands)
    (apart : (Place.conditions field).Apart cls operands) (unpaired : Unpaired operands)
    (free : GeoFree operands) (key : String) :
    (fieldStep cx below cls field key operands).Yields [.merge (outputKey cls field key)
      (.ofList (renameConditions (localText cx.codec cls) cls field operands))] := by
  let ids := localText cx.codec cls
  let edits := operands.toList.map fun entry => conditionEdit ids cls field entry.1 entry.2
  let parts := operands.toList.map fun entry =>
    Part.own [conditionEdit ids cls field entry.1 entry.2]
  have steps : ((operands.toList.map fun entry =>
      (entry.1, mapIdsUnder ids cls field entry.2)).mapM fun entry =>
        part cx below cls field entry.1 entry.2).Yields parts := by
    rw [List.mapM_map]
    exact Run.yields_mapM fun entry mem =>
      yields_part plain renames visit unpaired free (Dict.mem_toList.mp mem)
  have build : Edit.build edits = .ofList (renameConditions ids cls field operands) := by
    rw [renameConditions_eq]
    exact Edit.build_map_of_nodup (key_conditionEdit ids cls field)
      (written_conditionEdit ids cls field) apart
  -- Every part is an edit of the object of the field: no condition moves to a dotted path.
  have own : parts.flatMap Part.ownEdits = edits := Part.flatMap_ownEdits_own _ operands.toList
  have dotted : parts.flatMap Part.dottedEdits = [] :=
    Part.flatMap_dottedEdits_own _ operands.toList
  have assembled : (assemble cx cls field parts).Yields
      (.ofList (renameConditions ids cls field operands)) := by
    rw [assemble, plain, own, build]
    exact Run.yields_pure _
  refine (Run.yields_emit (.fieldEntered field cls)).bind ?_
  refine (yields_conditions cx cls field operands).bind (steps.bind (assembled.bind ?_))
  rw [dotted]
  exact Run.yields_pure _

end Steps

/-! ### Levels -/

/-- Whatever is lowered below is renamed, if nothing in the way of a renaming is visited. -/
theorem belowAt_renames (cx : Context) {cls : String} {input : Json}
    (plain : ∀ field, cx.schema.reference? cls field = none) (renameable : Renameable cls input)
    (levels : Nat) : (belowAt cx levels).Renames (localText cx.codec cls) cls input := by
  induction levels with
  | zero =>
    -- Without levels every lowering fails.
    constructor
    · intro filter _
      exact Run.yields_fail _ _
    · intro field key operands _
      exact Run.yields_fail _ _
  | succ levels ih =>
    constructor
    · intro filter visit
      exact yields_filterStep ih visit (renameable.apart .filter filter visit)
    · intro field key operands visit
      exact yields_fieldStep (plain field) ih visit
        (renameable.apart (.conditions field) operands visit)
        (renameable.unpaired field operands visit) (renameable.geoFree field operands visit) key

/-- **Renaming.** On a class without references, whatever lowering makes of a renameable filter is
the filter with its keys renamed and with local ids in place of the identifiers of the class. -/
theorem lower_eq_rename {schema : Schema} {codec : Codec} {options : Options} {cls : String}
    (plain : ∀ field, schema.link? cls field = none) {input query : Json}
    (renameable : Renameable cls input)
    (h : (lower (.of schema codec options) cls input).result = .ok query) :
    query = rename (localText codec cls) cls input := by
  have references (field : String) : schema.reference? cls field = none :=
    Option.map_eq_none_iff.mp (plain field)
  have renames := belowAt_renames (.of schema codec options) references renameable
    options.maxDepth
  exact renames.value (fun filter eq => .input eq) query h

/-! ### A filter on users -/

section Users

/-- The condition of being the user with the local id `1`. -/
private def isFirst : Object := .singleton "equalTo" (.str "VXNlcjox")

/-- A filter with a condition on identifiers. -/
private def firstUser : Object := .singleton "id" (.obj isFirst)

/-- A filter with an identifier that is no condition. -/
private def literalUser : Object := .singleton "id" (.str "VXNlcjox")

/-- A condition that is a filter. -/
private def authoredBy : Object := .singleton "where" (.obj literalUser)

/-- The entries of `users`. -/
private def userEntries : List (String × Json) :=
  [("AND", .arr [.obj firstUser, .str "Ann"]), ("author", .obj authoredBy)]

/-- A filter on users that names one of them by an identifier, in a condition and outside. -/
def users : Json := .obj (.ofList userEntries)

/-- The query of the filter, for the text that the identifier in the condition becomes. -/
def usersQuery (text : String) : Json :=
  .obj (.ofList [
    ("$and", .arr [
      .obj (.singleton "objectId" (.obj (.singleton "$eq" (.str text)))), .str "Ann"]),
    ("author", .obj (.singleton "where" (.obj (.singleton "objectId" (.str "VXNlcjox")))))])

/-- The objects of the filter with their places. -/
private def userObjects : List (Place × Object) :=
  [(.filter, .ofList userEntries), (.filter, firstUser), (.conditions "id", isFirst),
    (.conditions "author", authoredBy), (.filter, literalUser)]

private theorem mem_userEntries {key : String} {value : Json}
    (entry : (Dict.ofList userEntries : Object).get? key = some value) :
    key = "AND" ∧ value = .arr [.obj firstUser, .str "Ann"] ∨
      key = "author" ∧ value = .obj authoredBy := by
  have mem : (key, value) ∈ userEntries := Dict.mem_toList.mpr entry
  simpa [userEntries] using mem

private theorem mem_userObjects {place : Place} {members : Object}
    (visit : Visited users place members) : (place, members) ∈ userObjects := by
  unfold userObjects
  induction visit with
  | input eq =>
    cases eq
    simp
  | branch visit name entry mem ih =>
    have cases := by simpa [userObjects] using ih
    rcases cases with rfl | rfl | rfl
    · rcases mem_userEntries entry with ⟨rfl, eq⟩ | ⟨rfl, eq⟩
      · cases eq
        have eq := by simpa using mem
        simp [eq]
      · cases eq
    · simp [firstUser] at entry
    · simp [literalUser] at entry
  | field visit name entry ih =>
    have cases := by simpa [userObjects] using ih
    rcases cases with rfl | rfl | rfl
    · rcases mem_userEntries entry with ⟨rfl, eq⟩ | ⟨rfl, eq⟩
      · cases eq
      · cases eq
        simp
    · obtain ⟨rfl, rfl⟩ : _ = "id" ∧ isFirst = _ := by simpa [firstUser] using entry
      simp
    · simp [literalUser] at entry
  | whereFilter visit entry ih =>
    have cases := by simpa [userObjects] using ih
    rcases cases with ⟨rfl, rfl⟩ | ⟨rfl, rfl⟩
    · simp [isFirst] at entry
    · obtain rfl : literalUser = _ := by simpa [authoredBy, whereKey] using entry
      simp
  | nested visit ne entry ih =>
    have cases := by simpa [userObjects] using ih
    rcases cases with ⟨rfl, rfl⟩ | ⟨rfl, rfl⟩
    · simp [isFirst] at entry
    · obtain ⟨eq, -⟩ : _ = "where" ∧ literalUser = _ := by simpa [authoredBy] using entry
      exact absurd eq ne

private theorem eq_of_userConditions {field : String} {operands : Object}
    (visit : Visited users (.conditions field) operands) :
    operands = isFirst ∨ operands = authoredBy := by
  have mem := mem_userObjects visit
  rcases (by simpa [userObjects] using mem) with ⟨-, rfl⟩ | ⟨-, rfl⟩
  · exact .inl rfl
  · exact .inr rfl

/-- The keys of the filter can be renamed. -/
theorem users_renameable : Renameable "User" users where
  apart place members visit := by
    have apart : ∀ object ∈ userObjects, object.1.Apart "User" object.2 := by
      unfold Place.Apart
      decide +kernel
    exact apart (place, members) (mem_userObjects visit)
  unpaired field operands visit name operand entry := by
    rcases eq_of_userConditions visit with rfl | rfl
    · obtain ⟨-, rfl⟩ : name = "equalTo" ∧ _ = operand := by simpa [isFirst] using entry
      rfl
    · obtain ⟨-, rfl⟩ : name = "where" ∧ _ = operand := by simpa [authoredBy] using entry
      rfl
  geoFree field operands visit := by
    have free : ∀ operands ∈ [isFirst, authoredBy], GeoFree operands := by
      unfold GeoFree
      decide +kernel
    refine free operands ?_
    rcases eq_of_userConditions visit with rfl | rfl
    · exact List.mem_cons_self
    · exact List.mem_cons_of_mem _ List.mem_cons_self

/-- The query of the filter is its renaming with the local id of the user. -/
theorem lower_users_eq_rename :
    (∀ field, (⟨[]⟩ : Schema).link? "User" field = none) ∧ Renameable "User" users ∧
      (lower (.of ⟨[]⟩ .relay {}) "User" users).result = .ok (usersQuery "1") ∧
      usersQuery "1" = rename (localText .relay "User") "User" users := by
  have plain (field : String) : (⟨[]⟩ : Schema).link? "User" field = none := rfl
  have lowered : (lower (.of ⟨[]⟩ .relay {}) "User" users).result = .ok (usersQuery "1") := rfl
  exact ⟨plain, users_renameable, lowered, lower_eq_rename plain users_renameable lowered⟩

/-- Keys alone are not all that is renamed: the query has a local id where the filter has an
identifier. -/
theorem lower_users_ne_rename_id :
    (∀ field, (⟨[]⟩ : Schema).link? "User" field = none) ∧ Renameable "User" users ∧
      (lower (.of ⟨[]⟩ .relay {}) "User" users).result = .ok (usersQuery "1") ∧
      usersQuery "1" ≠ rename id "User" users := by
  have renamed : rename id "User" users = usersQuery "VXNlcjox" := rfl
  refine ⟨fun _ => rfl, users_renameable, rfl, ?_⟩
  rw [renamed]
  decide +kernel

end Users

end Lowering

end FilterQuery
