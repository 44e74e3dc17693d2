import FilterQuery.Proofs.Lowering.Entered
import FilterQuery.Proofs.Lowering.Pairs

/-!
# Lowering a query

Lowering leaves settled objects behind, where nothing stands in the way: no combinator without a
list, no pair, and no object with two keys that are sent to the same key (`Replayable`). So the
query of such a filter is its own query (`lower_lower`), on a class without references.

The proof follows the objects that are entered. Each entry of such an object gives one edit, and
what the edit writes is an `Outcome`: it reflects the value of the entry, and an object in it is
settled. An object that is built from outcomes is settled (`settled_of_outcomes`), and it takes no
more levels than were there when it was built, so the second time they suffice.
-/

namespace FilterQuery

namespace Lowering

/-- **Replayable filters.** Of all the objects that are entered, none has two keys that are sent to
the same key, none that holds conditions has a pair, and combinators have lists. -/
structure Replayable (cls : String) (input : Json) : Prop where
  /-- The keys of every object stay apart. -/
  apart : ∀ place members, Entered input place members → place.Apart cls members
  /-- No operand is a pair. -/
  unpaired : ∀ field operands, Entered input (.conditions field) operands → Unpaired operands
  /-- The operand of a combinator is a list. -/
  lists : ∀ filter, Entered input .filter filter → ∀ (combinator : Combinator) operand,
    filter.get? combinator.name = some operand → ∃ items, operand = .arr items

/-! ### Outcomes -/

/-- **Outcomes.** What the value under a key becomes reflects it, and if it is an object, it is
settled where it stands. -/
structure Outcome (cls : String) (levels : Nat) (place : Place) (key : String)
    (value lowered : Json) : Prop where
  /-- What becomes of the value reflects it. -/
  reflects : Reflects value lowered
  /-- An object is settled. -/
  settled : ∀ nested, lowered = .obj nested → Settled cls levels (place.below key) nested

section Outcomes

variable {cls : String} {levels : Nat} {place : Place}

theorem Outcome.of_literal {key : String} {value lowered : Json}
    (reflects : Reflects value lowered) (literal : lowered.isObject = false) :
    Outcome cls levels place key value lowered := by
  refine ⟨reflects, ?_⟩
  rintro nested rfl
  cases literal

/-- What is settled under a key is settled under the key that it is sent to. -/
theorem Settled.below_target {key : String} {value : Json} {nested : Object}
    (settled : Settled cls levels (place.below key) nested) :
    Settled cls levels (place.below (place.target cls key value)) nested := by
  cases place with
  | filter => exact settled.relocate _
  | conditions field =>
    by_cases sent : (Place.conditions field).target cls key value = whereKey
    · have same : (Place.conditions field).target cls key value = key := by
        refine Place.target_eq_of_mem ?_
        rw [sent]
        decide
      rwa [same]
    · have ne : key ≠ whereKey := by
        rintro rfl
        cases value <;> exact sent rfl
      rw [Place.below_conditions_of_ne sent]
      rw [Place.below_conditions_of_ne ne] at settled
      exact settled.relocate _

/-- An object of outcomes is settled and reflects the object that they come from. -/
theorem settled_of_outcomes {members lowered : Object}
    (unpaired : ∀ field, place = .conditions field → Unpaired members)
    (each : ∀ k result, lowered.get? k = some result → ∃ key value,
      members.get? key = some value ∧ place.target cls key value = k ∧
        Outcome cls levels place key value result) :
    Settled cls (levels + 1) place lowered ∧ Reflects (.obj members) (.obj lowered) := by
  constructor
  · constructor
    · intro k result found
      obtain ⟨key, value, -, rfl, outcome⟩ := each k result found
      exact Place.target_target outcome.reflects.object
    · intro field isConditions k result found
      obtain ⟨key, value, entry, -, outcome⟩ := each k result found
      exact outcome.reflects.unpaired (unpaired field isConditions key value entry)
    · intro k nested found
      obtain ⟨key, value, -, rfl, outcome⟩ := each k (.obj nested) found
      exact (outcome.settled nested rfl).below_target
  · refine .of_members fun name mem result found => ?_
    obtain ⟨key, value, entry, sent, outcome⟩ := each name result found
    -- The members of a pair come from members of the same names.
    have same : place.target cls key value = key := by
      refine Place.target_eq_of_mem (sent ▸ ?_)
      exact List.mem_append_left [whereKey] mem
    rw [← sent, same]
    exact ⟨value, entry, outcome.reflects⟩

/-- **Edits of entries.** The edit writes an outcome of the entry under its target. -/
def Writes (cls : String) (levels : Nat) (place : Place) (entry : String × Json)
    (edit : Edit) : Prop :=
  edit.key = place.target cls entry.1 entry.2 ∧
    Outcome cls levels place entry.1 entry.2 edit.written

private theorem exists_of_forall₂ {α β : Type} {R : α → β → Prop} {xs : List α} {ys : List β}
    (h : List.Forall₂ R xs ys) : ∀ y ∈ ys, ∃ x ∈ xs, R x y := by
  induction h with
  | nil => exact nofun
  | @cons x y xs ys head tail ih =>
    refine List.forall_mem_cons.mpr ⟨⟨x, List.mem_cons_self, head⟩, fun y mem => ?_⟩
    obtain ⟨x', mem', related⟩ := ih y mem
    exact ⟨x', List.mem_cons_of_mem x mem', related⟩

/-- Edits that write an outcome of each entry build a settled object, if no two entries are sent to
the same key. -/
theorem settled_of_edits {members : Object} {edits : List Edit}
    (unpaired : ∀ field, place = .conditions field → Unpaired members)
    (apart : place.Apart cls members)
    (each : List.Forall₂ (Writes cls levels place) members.toList edits) :
    Settled cls (levels + 1) place (Edit.build edits) ∧
      Reflects (.obj members) (.obj (Edit.build edits)) := by
  have keys : (members.toList.map fun entry => place.target cls entry.1 entry.2) =
      edits.map Edit.key := by
    rw [← List.forall₂_eq_eq_eq, List.forall₂_map_left_iff, List.forall₂_map_right_iff]
    exact each.imp fun _ _ writes => writes.1.symm
  have distinct : (edits.map Edit.key).Nodup := keys ▸ apart
  refine settled_of_outcomes unpaired fun k result found => ?_
  obtain ⟨edit, mem, own, rfl⟩ := Edit.exists_of_get?_build distinct found
  obtain ⟨⟨key, value⟩, entry, sent, outcome⟩ := exists_of_forall₂ each edit mem
  exact ⟨key, value, Dict.mem_toList.mp entry, sent.symm.trans own, outcome⟩

/-- Elements that give one edit for each entry give them all together. -/
theorem forall₂_flatMap {α : Type} {R : String × Json → Edit → Prop} {give : α → List Edit}
    {entries : List (String × Json)} {elements : List α}
    (each : List.Forall₂ (fun entry element => ∃ edit, give element = [edit] ∧ R entry edit)
      entries elements) :
    List.Forall₂ R entries (elements.flatMap give) := by
  have singles : entries.flatMap ([·]) = entries := List.flatMap_singleton' entries
  rw [← singles]
  refine List.rel_flatMap each ?_
  rintro entry element ⟨edit, eq, related⟩
  rw [eq]
  exact .cons related .nil

end Outcomes

/-! ### Steps -/

/-- **Levels below that settle.** What is entered is lowered to settled objects that reflect it. -/
structure Below.Settles (cls : String) (input : Json) (levels : Nat) (below : Below) : Prop where
  /-- Filters are settled. -/
  filter : ∀ filter query, Entered input .filter filter →
    (below.filter cls filter).result = .ok query →
      Settled cls levels .filter query ∧ Reflects (.obj filter) (.obj query)
  /-- Conditions give one edit, which merges settled conditions. -/
  field : ∀ field key operands edits, Entered input (.conditions field) operands →
    (below.field cls field key operands).result = .ok edits → ∃ lowered,
      edits = [.merge (outputKey cls field key) lowered] ∧
        Settled cls levels (.conditions field) lowered ∧ Reflects (.obj operands) (.obj lowered)

section Steps

variable {cx : Context} {cls : String} {input : Json} {levels : Nat} {below : Below}

/-- An entry of a filter gives one edit, which writes an outcome. -/
theorem exists_writes_of_entryStep (settles : below.Settles cls input levels)
    (replayable : Replayable cls input) {filter : Object} (entered : Entered input .filter filter)
    {key : String} {value : Json} (entry : filter.get? key = some value) {edits : List Edit}
    (h : (entryStep below cls key value).result = .ok edits) :
    ∃ edit, edits = [edit] ∧ Writes cls levels .filter (key, value) edit := by
  rcases name : Combinator.ofName? key with _ | combinator
  · have target : Place.filter.target cls key value = outputKey cls key key :=
      Place.target_filter_of_none name value
    cases value with
    | obj operands =>
      rw [entryStep_obj name] at h
      obtain ⟨lowered, rfl, settled, reflects⟩ :=
        settles.field key key operands edits (entered.field name entry) h
      refine ⟨_, rfl, target.symm, reflects, ?_⟩
      rintro nested ⟨⟩
      exact settled
    | _ =>
      rw [entryStep_literal name rfl] at h
      cases h
      exact ⟨_, rfl, target.symm, .of_literal (.refl _) rfl⟩
  · have target : Place.filter.target cls key value = combinator.target :=
      Place.target_filter_of_some name value
    have spelled := Combinator.name_of_ofName? name
    obtain ⟨items, rfl⟩ := replayable.lists filter entered combinator value (spelled ▸ entry)
    rw [result_entryStep_of_some name, result_branches_arr] at h
    obtain ⟨operand, hoperand, rfl⟩ := Except.map_eq_ok_iff.mp h
    obtain ⟨lowered, -, rfl⟩ := Except.map_eq_ok_iff.mp hoperand
    exact ⟨_, rfl, target.symm, .of_literal (.of_lists items lowered) rfl⟩

/-- A filter is lowered to a settled filter. -/
theorem settled_of_filterStep (settles : below.Settles cls input levels)
    (replayable : Replayable cls input) {filter query : Object}
    (entered : Entered input .filter filter)
    (h : (filterStep below cls filter).result = .ok query) :
    Settled cls (levels + 1) .filter query ∧ Reflects (.obj filter) (.obj query) := by
  obtain ⟨succeed, rfl⟩ := result_filterStep_eq_ok_iff.mp h
  refine settled_of_edits nofun (replayable.apart .filter filter entered) (forall₂_flatMap ?_)
  refine List.forall₂_same.mpr fun entry mem => ?_
  obtain ⟨edits, step⟩ := succeed entry mem
  rw [entryEdits_of_ok step]
  exact exists_writes_of_entryStep settles replayable entered (Dict.mem_toList.mp mem) step

/-- A condition that becomes no object goes to the key of its name. -/
theorem Place.target_of_literal (ids : String → String) {field name : String} {operand : Json}
    (literal : (Geo.encode (Operator.ofName? name)
      (.ofJson (mapIdsUnder ids cls field operand))).isObject = false) :
    (Place.conditions field).target cls name operand = targetKey name := by
  cases operand with
  | obj nested =>
    rw [mapIdsUnder_obj] at literal
    -- An object that becomes a list is the operand of an operator, and `id` is none.
    have ne : name ≠ idField := by
      rintro rfl
      have stays : Geo.encode none (.ofJson (.obj nested)) = .obj nested :=
        Operand.toJson_ofJson (.obj nested)
      have noOperator : Operator.ofName? idField = none := by decide
      rw [noOperator, stays] at literal
      cases literal
    exact outputKey_of_not_id (isIdField_of_ne ne cls) _
  | _ => rfl

/-- A condition gives one edit, which writes an outcome. -/
theorem exists_writes_of_part {ids : String → String} (blank : ids "" = "") {field : String}
    (plain : cx.schema.reference? cls field = none) (settles : below.Settles cls input levels)
    (replayable : Replayable cls input) {operands : Object}
    (entered : Entered input (.conditions field) operands) {name : String} {operand : Json}
    (entry : operands.get? name = some operand) {found : Part}
    (h : (part cx below cls field name (mapIdsUnder ids cls field operand)).result = .ok found) :
    ∃ edit, found.ownEdits = [edit] ∧
      Writes cls levels (.conditions field) (name, operand) edit := by
  have noPair : pairUnder? field (.ofJson (mapIdsUnder ids cls field operand)) = none := by
    rw [pairUnder?, pair?_ofJson_mapIdsUnder,
      replayable.unpaired field operands entered name operand entry, ite_self]
  have reflects := (reflects_mapIdsUnder blank cls field operand).trans
    (reflects_encode (Operator.ofName? name) (mapIdsUnder ids cls field operand))
  -- An operand that is encoded as an object is one, and what it is encoded as is entered.
  have enters {nested : Object} (encoded : Geo.encode (Operator.ofName? name)
      (.ofJson (mapIdsUnder ids cls field operand)) = .obj nested) :
      (∃ members, operand = .obj members) ∧
        Entered input ((Place.conditions field).below name) nested := by
    rw [encoded] at reflects
    obtain ⟨members, rfl⟩ := Json.exists_of_isObject (reflects.object rfl)
    rw [mapIdsUnder_obj] at encoded
    exact ⟨⟨members, rfl⟩, entered.encoded entry encoded⟩
  obtain ⟨pair, is, -⟩ | ⟨-, ⟨reference, known, -⟩ | ⟨-, given⟩⟩ := part_cases h
  · cases noPair.symm.trans is
  · cases plain.symm.trans known
  cases plainPart_of_result given with
  | @filter nested query encoded isWhere hquery =>
    subst isWhere
    obtain ⟨⟨members, rfl⟩, inside⟩ := enters encoded
    rw [encoded] at reflects
    obtain ⟨settled, reflects'⟩ := settles.filter nested query inside hquery
    refine ⟨_, rfl, rfl, reflects.trans reflects', ?_⟩
    rintro _ ⟨⟩
    exact settled
  | @conditions nested edits encoded ne hedits =>
    obtain ⟨⟨members, rfl⟩, inside⟩ := enters encoded
    rw [encoded] at reflects
    rw [Place.below_conditions_of_ne ne] at inside
    obtain ⟨lowered, rfl, settled, reflects'⟩ :=
      settles.field name (targetKey name) nested edits inside hedits
    refine ⟨_, rfl, rfl, reflects.trans reflects', ?_⟩
    rintro _ ⟨⟩
    rw [Place.below_conditions_of_ne ne]
    exact settled
  | literal literal =>
    exact ⟨_, rfl, (Place.target_of_literal ids literal).symm, .of_literal reflects literal⟩

/-- The conditions of a field are lowered to settled conditions. -/
theorem settled_of_fieldStep {field : String} (blank : localText cx.codec cls "" = "")
    (plain : cx.schema.reference? cls field = none) (settles : below.Settles cls input levels)
    (replayable : Replayable cls input) {operands : Object}
    (entered : Entered input (.conditions field) operands) {key : String} {edits : List Edit}
    (h : (fieldStep cx below cls field key operands).result = .ok edits) :
    ∃ lowered, edits = [.merge (outputKey cls field key) lowered] ∧
      Settled cls (levels + 1) (.conditions field) lowered ∧
        Reflects (.obj operands) (.obj lowered) := by
  have unpaired := replayable.unpaired field operands entered
  have noPaths : pathEdits field operands = [] := pathEdits_eq_nil_iff.mpr (.inr unpaired)
  obtain ⟨some, -⟩ | ⟨-, entries, parts, lowered, hentries, hparts, hlowered, rfl⟩ :=
    edits_of_fieldStep h
  · exact absurd noPaths some
  refine ⟨lowered, rfl, ?_⟩
  have built : lowered = Edit.build (parts.flatMap Part.ownEdits) := by
    rw [assemble, plain] at hlowered
    exact (Except.ok.inj hlowered).symm
  obtain rfl := yields_conditions cx cls field operands entries hentries
  have steps := List.forall₂_map_left_iff.mp (Except.mapM_eq_ok_iff.mp hparts)
  have place : ∀ entry ∈ operands.toList, operands.get? entry.1 = some entry.2 :=
    fun entry mem => Dict.mem_toList.mp mem
  rw [built]
  refine settled_of_edits (fun _ _ => unpaired) (replayable.apart _ operands entered)
    (forall₂_flatMap ?_)
  refine ((List.forall₂_and_left _ _).mpr ⟨place, steps⟩).imp ?_
  rintro entry found ⟨place, step⟩
  exact exists_writes_of_part blank plain settles replayable entered place step

end Steps

/-! ### Levels -/

/-- Whatever is lowered below is settled, if nothing that is entered stands in the way. -/
theorem belowAt_settles (cx : Context) {cls : String} {input : Json}
    (blank : localText cx.codec cls "" = "")
    (plain : ∀ field, cx.schema.reference? cls field = none) (replayable : Replayable cls input)
    (levels : Nat) : (belowAt cx levels).Settles cls input levels := by
  induction levels with
  | zero =>
    -- Without levels every lowering fails.
    constructor
    · intro filter query _ h
      cases h
    · intro field key operands edits _ h
      cases h
  | succ levels ih =>
    constructor
    · intro filter query entered h
      exact settled_of_filterStep ih replayable entered h
    · intro field key operands edits entered h
      exact settled_of_fieldStep blank (plain field) ih replayable entered h

/-- The empty text is no identifier. -/
theorem localText_relay_empty (cls : String) : localText .relay cls "" = "" := rfl

/-- **Lowering a query.** On a class without references, the query of a replayable filter is its own
query, under the same options. -/
theorem lower_lower {schema : Schema} {options : Options} {cls : String}
    (plain : ∀ field, schema.link? cls field = none) {input query : Json}
    (replayable : Replayable cls input)
    (h : (lower (.of schema .relay options) cls input).result = .ok query) :
    (lower (.of schema .relay options) cls query).result = .ok query := by
  have references (field : String) : schema.reference? cls field = none :=
    Option.map_eq_none_iff.mp (plain field)
  cases input with
  | obj filter =>
    have settles := belowAt_settles (.of schema .relay options) (localText_relay_empty cls)
      references replayable options.maxDepth
    rw [result_lower_obj] at h
    obtain ⟨lowered, hlowered, rfl⟩ := Except.map_eq_ok_iff.mp h
    obtain ⟨settled, -⟩ := settles.filter filter lowered (.input rfl) hlowered
    exact lower_of_settled references settled
  | _ =>
    cases h
    rfl

/-! ### A filter on shops -/

section Shops

/-- A place with a member that is named like an operator. -/
private def harbour : Object := .ofList [("latitude", .num (.int 1)), ("point", .num (.int 2))]

/-- A corner that would be a pair if it were an operand. -/
private def pairedCorner : Object := .ofList [("key", .str "north"), ("value", .num (.int 1))]

/-- A box with the two corners. -/
private def onMap : Object :=
  .singleton "box" (.obj (.ofList [("bottomLeft", .obj harbour),
    ("upperRight", .obj pairedCorner)]))

/-- The center of a search. -/
private def nearby : Object := .ofList [("center", .obj harbour), ("exists", .bool true)]

/-- Conditions on the location of a shop. -/
private def located : Object := .ofList [("nearSphere", .obj nearby), ("within", .obj onMap)]

/-- The condition of being one of two shops. -/
private def listed : Object := .singleton "in" (.arr [.str "U2hvcDox", .str "2"])

/-- A filter that is a condition on owners. -/
private def owned : Object := .ofList [("id", .str "VXNlcjox"), ("rank", .null)]

/-- The alternatives of `shops`. -/
private def shopBranches : List Json := [.obj (.singleton "id" (.obj listed)), .bool true]

/-- The entries of `shops`. -/
private def shopEntries : List (String × Json) :=
  [("OR", .arr shopBranches), ("location", .obj located),
    ("owner", .obj (.singleton "where" (.obj owned)))]

/-- A filter on shops by identifiers, by places and by their owners. -/
def shops : Json := .obj (.ofList shopEntries)

/-- The query of the filter. -/
def shopsQuery : Json :=
  let stamped : String × Json := ("__type", .str "GeoPoint")
  .obj (.ofList [
    ("$or", .arr [
      .obj (.singleton "objectId" (.obj (.singleton "$in" (.arr [.str "1", .str "2"])))),
      .bool true]),
    ("location", .obj (.ofList [
      ("$nearSphere", .obj (.ofList [stamped, ("$exists", .bool true),
        ("center", .obj (.ofList [("latitude", .num (.int 1)), ("$point", .num (.int 2))]))])),
      ("$within", .obj (.singleton "$box" (.arr [
        .obj (.ofList [stamped, ("latitude", .num (.int 1)), ("point", .num (.int 2))]),
        .obj (.ofList [stamped, ("key", .str "north"), ("value", .num (.int 1))])])))])),
    ("owner", .obj (.singleton "where"
      (.obj (.ofList [("objectId", .str "VXNlcjox"), ("rank", .null)]))))])

/-- The objects of the filter that are entered. -/
private def shopObjects : List (Place × Object) :=
  [(.filter, .ofList shopEntries), (.filter, .singleton "id" (.obj listed)),
    (.conditions "id", listed), (.conditions "location", located),
    (.conditions "nearSphere", Geo.stamp nearby), (.conditions "center", harbour),
    (.conditions "within", onMap), (.conditions "owner", .singleton "where" (.obj owned)),
    (.filter, owned)]

private theorem mem_shopObjects {place : Place} {members : Object}
    (entered : Entered shops place members) : (place, members) ∈ shopObjects := by
  refine mem_of_entered ?_ (by decide +kernel) entered
  rintro filter ⟨⟩
  exact List.mem_cons_self

/-- Nothing stands in the way of lowering the filter twice. -/
theorem shops_replayable : Replayable "Shop" shops where
  apart place members entered := by
    have apart : ∀ object ∈ shopObjects, object.1.Apart "Shop" object.2 := by
      unfold Place.Apart
      decide +kernel
    exact apart (place, members) (mem_shopObjects entered)
  unpaired field operands entered := by
    have unpaired : ∀ object ∈ shopObjects, Unpaired object.2 := by decide +kernel
    exact unpaired (.conditions field, operands) (mem_shopObjects entered)
  lists filter entered combinator operand entry := by
    have lists : ∀ object ∈ shopObjects, ∀ combinator ∈ [Combinator.and, .or, .nor],
        ∀ operand ∈ object.2.get? combinator.name, operand = .arr shopBranches := by
      decide +kernel
    have listed : combinator ∈ [Combinator.and, .or, .nor] := by cases combinator <;> decide
    exact ⟨shopBranches, lists (.filter, filter) (mem_shopObjects entered) combinator listed
      operand entry⟩

/-- Stamps, targets and local ids are all left as they are. -/
theorem lower_shopsQuery :
    (∀ field, (⟨[]⟩ : Schema).link? "Shop" field = none) ∧ Replayable "Shop" shops ∧
      (lower (.of ⟨[]⟩ .relay {}) "Shop" shops).result = .ok shopsQuery ∧
      (lower (.of ⟨[]⟩ .relay {}) "Shop" shopsQuery).result = .ok shopsQuery ∧
      shopsQuery ≠ shops := by
  have plain (field : String) : (⟨[]⟩ : Schema).link? "Shop" field = none := rfl
  have lowered : (lower (.of ⟨[]⟩ .relay {}) "Shop" shops).result = .ok shopsQuery := rfl
  exact ⟨plain, shops_replayable, lowered, lower_lower plain shops_replayable lowered,
    by decide +kernel⟩

end Shops

end Lowering

end FilterQuery
