import FilterQuery.Proofs.Identifier
import FilterQuery.Proofs.Lowering.Noninterference
import FilterQuery.Proofs.Lowering.References.Query
import FilterQuery.Proofs.Lowering.Texts

/-!
# Filters on identifiers

A filter that only has conditions on `id`, with literals as operands, has the same conditions on
`objectId` as its query, each under its target and with the local texts of its texts
(`result_lower_id`). Local texts do not depend on what else is there: relay identifiers of the class
become their local ids, and every other text stays (`Localizes`). So the policy cannot change the
query, and the strict one only decides whether there is one (`lower_identifiers`).
-/

namespace FilterQuery

namespace Lowering

/-! ### Literals as conditions -/

section Literals

variable {cx : Context} {below : Below} {cls field : String} {operands : Object}

/-- Replacing identifiers leaves literals literals. -/
theorem isObject_mapIds (ids : String → String) (operand : Json) :
    (mapIds ids operand).isObject = operand.isObject := by
  cases operand <;> rfl

/-- Away from the geographic operators a literal stands under the target of its condition. -/
theorem part_of_literal (plain : cx.schema.reference? cls field = none) (free : GeoFree operands)
    {name : String} {operand literal : Json} (entry : operands.get? name = some operand)
    (noObject : literal.isObject = false) :
    part cx below cls field name literal = pure (.own [.set (targetKey name) literal]) := by
  have unpaired : pairUnder? field (.ofJson literal) = none := by
    refine pairUnder?_eq_none ?_ field
    cases literal with
    | obj members => cases noObject
    | _ => rfl
  rw [part_of_plain unpaired plain, plainPart, encode_of_geoFree free entry]
  cases literal with
  | obj members => cases noObject
  | _ => rfl

end Literals

/-! ### Conditions on identifiers -/

/-- Conditions whose operands are literals that are not encoded, each with a target of its own. -/
structure Flat (operands : Object) : Prop where
  /-- No operand is an object. -/
  literal : ∀ name operand, operands.get? name = some operand → operand.isObject = false
  /-- No operand is encoded. -/
  geoFree : GeoFree operands
  /-- No two operands have the same target. -/
  apart : (operands.toList.map fun entry => targetKey entry.1).Nodup

/-- The conditions under their targets, with a function applied to the texts. -/
def localized (ids : String → String) (operands : Object) : Object :=
  .ofList (operands.toList.map fun entry => (targetKey entry.1, mapIds ids entry.2))

section Conditions

variable {cx : Context} {below : Below} {cls : String} {operands : Object}

theorem get?_localized_eq_some_iff (flat : Flat operands) (ids : String → String) {key : String}
    {value : Json} :
    (localized ids operands).get? key = some value ↔
      ∃ name operand, operands.get? name = some operand ∧ targetKey name = key ∧
        mapIds ids operand = value := by
  have distinct : ((operands.toList.map fun entry =>
      (targetKey entry.1, mapIds ids entry.2)).map Prod.fst).Nodup := by
    rw [List.map_map]
    exact flat.apart
  rw [localized, Dict.get?_ofList_eq_some_iff distinct, List.mem_map]
  constructor
  · rintro ⟨⟨name, operand⟩, mem, ⟨⟩⟩
    exact ⟨name, operand, Dict.mem_toList.mp mem, rfl, rfl⟩
  · rintro ⟨name, operand, entry, rfl, rfl⟩
    exact ⟨(name, operand), Dict.mem_toList.mpr entry, rfl⟩

/-- Conditions on identifiers are localized, if all their texts are accepted. -/
theorem result_fieldStep_id (hasClass : cls ≠ "")
    (noReference : cx.schema.reference? cls idField = none) (flat : Flat operands)
    (key : String) :
    (fieldStep cx below cls idField key operands).result =
      (fun _ => [.merge objectIdKey (localized (localText cx.codec cls) operands)]) <$>
        (texts operands).mapM (accept cx.codec cx.policy) := by
  let ids := localText cx.codec cls
  let entries := operands.toList.map fun entry => (entry.1, mapIds ids entry.2)
  let edits := operands.toList.map fun entry => Edit.set (targetKey entry.1) (mapIds ids entry.2)
  let parts := operands.toList.map fun entry =>
    Part.own [.set (targetKey entry.1) (mapIds ids entry.2)]
  have localizes : (conditions cx cls idField operands).result =
      (fun _ => entries) <$> (texts operands).mapM (accept cx.codec cx.policy) :=
    result_conditions_of_id (isIdField_iff.mpr ⟨rfl, hasClass⟩) cx operands
  have lowers : (entries.mapM fun entry => (part cx below cls idField entry.1 entry.2).result) =
      .ok parts := by
    rw [List.mapM_map]
    refine Except.mapM_eq_ok_map fun entry mem => ?_
    have found := Dict.mem_toList.mp mem
    have literal : (mapIds ids entry.2).isObject = false := by
      rw [isObject_mapIds]
      exact flat.literal _ _ found
    rw [Function.comp_apply, part_of_literal noReference flat.geoFree found literal]
    rfl
  have own : parts.flatMap Part.ownEdits = edits := Part.flatMap_ownEdits_own _ operands.toList
  have dotted : parts.flatMap Part.dottedEdits = [] :=
    Part.flatMap_dottedEdits_own _ operands.toList
  have key_edit (name : String) (operand : Json) :
      (Edit.set (targetKey name) (mapIds ids operand)).key = targetKey name := rfl
  have written_edit (name : String) (operand : Json) :
      (Edit.set (targetKey name) (mapIds ids operand)).written = mapIds ids operand := rfl
  have built : Edit.build edits = localized ids operands :=
    Edit.build_map_of_nodup key_edit written_edit flat.apart
  have assembles : (assemble cx cls idField parts).result = .ok (localized ids operands) := by
    rw [assemble, noReference, own, built]
    rfl
  rw [result_fieldStep, localizes]
  rcases (texts operands).mapM (accept cx.codec cx.policy) with error | accepted
  · rfl
  · rw [Except.map_ok, Except.ok_bind, lowers, Except.ok_bind, assembles, Except.ok_bind,
      fieldEdits, dotted, outputKey_of_id rfl hasClass]
    rfl

/-- **Conditions on identifiers.** A filter that only has conditions on `id` has the query that
they determine, if the policy accepts all their texts. -/
theorem result_lower_id {levels : Nat} (hasClass : cls ≠ "")
    (noReference : cx.schema.reference? cls idField = none) (flat : Flat operands)
    (enough : cx.limit = levels + 2) :
    (lower cx cls (.obj (.singleton idField (.obj operands)))).result =
      (fun _ => .obj (.singleton objectIdKey
        (.obj (localized (localText cx.codec cls) operands)))) <$>
          (texts operands).mapM (accept cx.codec cx.policy) := by
  rw [result_lower_field rfl enough, result_fieldStep_id hasClass noReference flat, Functor.map_map]
  rfl

end Conditions

/-! ### Relay identifiers -/

/-- **Local texts.** The function sends the identifiers of the class to their local ids, and every
other text to itself. A class whose name has a colon has no identifiers. -/
structure Localizes (cls : String) (ids : String → String) : Prop where
  /-- An identifier of the class becomes its local id. -/
  own : ∀ id, ':' ∉ cls.toList → ids (Codec.relay.encode ⟨cls, id⟩) = id
  /-- Every other text stays. -/
  other : ∀ text, (∀ id, ':' ∉ cls.toList → text ≠ Codec.relay.encode ⟨cls, id⟩) → ids text = text

theorem localizes_localText (cls : String) : Localizes cls (localText .relay cls) where
  own id free := by
    have decoded : Codec.relay.decode (Codec.relay.encode ⟨cls, id⟩) = .ok ⟨cls, id⟩ :=
      Codec.relay_decode_eq_ok_iff.mpr ⟨free, rfl⟩
    rw [localText, decoded]
    dsimp only
    rw [GlobalId.localId?, if_pos rfl, Option.getD_some]
  other text foreign := by
    rcases decoded : Codec.relay.decode text with cause | ⟨type, id⟩
    · rw [localText, decoded]
    · obtain ⟨free, eq⟩ := Codec.relay_decode_eq_ok_iff.mp decoded
      have ne : type ≠ cls := by
        rintro rfl
        exact foreign id free eq
      rw [localText, decoded]
      dsimp only
      rw [GlobalId.localId?, if_neg ne, Option.getD_none]

/-- **Identifiers.** A filter that only has conditions on `id`, each with a literal or a list, has
these conditions on `objectId` as its query. The texts among the operands are replaced by their
local texts, and nothing else is. The strict policy makes no difference if all texts can be
decoded, and otherwise refuses the first one that cannot be. -/
theorem lower_identifiers (schema : Schema) {limit : Nat} {cls : String} {operands : Object}
    (hasClass : cls ≠ "") (noReference : schema.reference? cls idField = none)
    (flat : Flat operands) (enough : 2 ≤ limit) :
    let run (policy : IdentifierPolicy) := (lower (.of schema .relay ⟨policy, limit⟩) cls
      (.obj (.singleton idField (.obj operands)))).result
    ∃ ids query, Localizes cls ids ∧
      (∀ key value, query.get? key = some value ↔ ∃ name operand,
        operands.get? name = some operand ∧ targetKey name = key ∧ mapIds ids operand = value) ∧
      run .lenient = .ok (.obj (.singleton objectIdKey (.obj query))) ∧
      ((∀ text ∈ texts operands, ∃ identifier, Codec.relay.decode text = .ok identifier) ∧
          run .strict = run .lenient ∨
        ∃ before text after cause, texts operands = before ++ text :: after ∧
          (∀ earlier ∈ before, ∃ identifier, Codec.relay.decode earlier = .ok identifier) ∧
          Codec.relay.decode text = .error cause ∧
          run .strict = .error (.invalidIdentifier text cause)) := by
  intro run
  obtain ⟨levels, rfl⟩ : ∃ levels, limit = levels + 2 := ⟨limit - 2, by omega⟩
  let ids := localText .relay cls
  let query := localized ids operands
  have decides (policy : IdentifierPolicy) : run policy =
      (fun _ => .obj (.singleton objectIdKey (.obj query))) <$>
        (texts operands).mapM (accept .relay policy) :=
    result_lower_id hasClass noReference flat rfl
  have lenient : run .lenient = .ok (.obj (.singleton objectIdKey (.obj query))) := by
    rw [decides, Except.mapM_eq_ok_map fun text _ => accept_lenient .relay text, Except.map_ok]
  refine ⟨ids, query, localizes_localText cls, fun key value => get?_localized_eq_some_iff flat ids,
    lenient, ?_⟩
  rw [lenient, decides]
  rcases accepted : (texts operands).mapM (accept .relay .strict) with error | checked
  · right
    obtain ⟨before, text, after, split, earlier, refused⟩ := Except.mapM_eq_error_iff.mp accepted
    obtain ⟨cause, undecodable, rfl⟩ := (accept_strict_eq_error_iff .relay).mp refused
    refine ⟨before, text, after, cause, split, fun other mem => ?_, undecodable, rfl⟩
    exact (exists_accept_strict_iff .relay).mp (earlier other mem)
  · left
    refine ⟨fun text mem => ?_, rfl⟩
    exact (exists_accept_strict_iff .relay).mp (Except.exists_of_mapM_eq_ok accepted text mem)

/-! ### Mixed identifiers -/

/-- An identifier of a project, alone and in a list. The list also has an identifier of a user, a
text that is no identifier, a number, and a list of its own. -/
def mixedIds : Object :=
  .ofList [("equalTo", .str "UHJvamVjdDox"),
    ("in", .arr [.str "UHJvamVjdDox", .str "VXNlcjox", .str "home", .num (.int 7),
      .arr [.str "UHJvamVjdDox"]])]

/-- The conditions that they become for projects. -/
def mixedLocalIds : Object :=
  .ofList [("$eq", .str "1"),
    ("$in", .arr [.str "1", .str "VXNlcjox", .str "home", .num (.int 7),
      .arr [.str "UHJvamVjdDox"]])]

theorem flat_mixedIds : Flat mixedIds where
  literal := by
    have each : ∀ entry ∈ mixedIds.toList, entry.2.isObject = false := by decide
    exact fun name operand found => each (name, operand) (Dict.mem_toList.mpr found)
  geoFree := by
    unfold GeoFree
    decide +kernel
  apart := by decide

/-- Only the identifiers of the class outside the inner list are replaced, and the strict policy
refuses the text that is none. -/
theorem lower_mixedIds :
    let run (policy : IdentifierPolicy) := (lower (.of projects .relay ⟨policy, 2⟩) "Project"
      (.obj (.singleton "id" (.obj mixedIds)))).result
    run .lenient = .ok (.obj (.singleton "objectId" (.obj mixedLocalIds))) ∧
      (∃ cause, Codec.relay.decode "home" = .error cause ∧
        run .strict = .error (.invalidIdentifier "home" cause)) ∧
      ∃ ids, Localizes "Project" ids ∧ ∀ key value, mixedLocalIds.get? key = some value ↔
        ∃ name operand, mixedIds.get? name = some operand ∧ targetKey name = key ∧
          mapIds ids operand = value := by
  intro run
  have hasClass : "Project" ≠ "" := by decide
  have lenient : run .lenient = .ok (.obj (.singleton "objectId" (.obj mixedLocalIds))) := rfl
  have strict : run .strict = .error (.invalidIdentifier "home" (.utf8 (.illFormed 1 0))) := rfl
  obtain ⟨ids, query, localizes, members, whole, -⟩ :=
    lower_identifiers projects hasClass rfl flat_mixedIds (Nat.le_refl 2)
  cases lenient.symm.trans whole
  exact ⟨lenient, ⟨_, rfl, strict⟩, ids, localizes, members⟩

end Lowering

end FilterQuery
