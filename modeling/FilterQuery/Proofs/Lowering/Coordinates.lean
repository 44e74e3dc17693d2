import FilterQuery.Proofs.Geo
import FilterQuery.Proofs.Lowering.References.Query
import FilterQuery.Proofs.Lowering.Settled

/-!
# Coordinates in a query

A geographic operand is encoded first, and what comes out of it is then lowered as any other operand
of its condition. A list is done with at that point, so that polygons, boxes and spheres reach the
query as they were encoded, however deep their coordinates are and whatever names their members
have. A coordinate is an object, however, and its members are lowered as conditions. They stay if
none of them is an object or named like an operator, since the coordinate is settled then.

The main result is `lower_coordinates`: on a field that holds plain values, what a geographic
operator leaves in the query is what its operand is encoded as.
-/

namespace FilterQuery

namespace Lowering

/-- The object with one member. -/
def sole (key : String) (value : Json) : Json := .obj (.singleton key value)

section Steps

variable {cx : Context} {below : Below} {cls field key name : String} {operand : Json}

/-! ### A single condition -/

/-- An operand that is encoded as a list is put under the target as this list. -/
theorem result_plainPart_of_arr {items : List Json}
    (encoded : Geo.encode (Operator.ofName? name) (.ofJson operand) = .arr items) :
    (plainPart below cls name (.ofJson operand)).result =
      .ok (.own [.put (targetKey name) (.arr items)]) := by
  rw [plainPart, encoded]
  rfl

/-- An operand that is encoded as an object is put under the target as the object that its
conditions become. -/
theorem result_plainPart_of_obj (ne : name ≠ whereKey) {nested lowered : Object}
    (encoded : Geo.encode (Operator.ofName? name) (.ofJson operand) = .obj nested)
    (inside : (below.field cls name (targetKey name) nested).result =
      .ok [.merge (targetKey name) lowered]) :
    (plainPart below cls name (.ofJson operand)).result =
      .ok (.own [.put (targetKey name) (.obj lowered)]) := by
  rw [plainPart, encoded]
  dsimp only
  rw [if_neg ne, Run.result_bind, inside]
  rfl

/-- A field with a single condition becomes the object of what the condition puts there. -/
theorem result_fieldStep_singleton (plain : cx.schema.reference? cls field = none)
    (notId : isIdField cls field = false) (unpaired : (Operand.ofJson operand).pair? = none)
    {target : String} {value : Json}
    (puts : (plainPart below cls name (.ofJson operand)).result = .ok (.own [.put target value])) :
    (fieldStep cx below cls field key (.singleton name operand)).result =
      .ok [.merge key (.singleton target value)] := by
  have entries : (Dict.singleton name operand).toList = [(name, operand)] := rfl
  have step : (part cx below cls field name operand).result = .ok (.own [.put target value]) := by
    rw [part_of_plain (pairUnder?_eq_none unpaired field) plain]
    exact puts
  have assembled : (assemble cx cls field [.own [.put target value]]).result =
      .ok (.singleton target value) := by
    rw [assemble, plain, ← Edit.build_put]
    rfl
  rw [result_fieldStep, result_conditions_of_not_id notId, Except.ok_bind, entries,
    Except.mapM_singleton, step, Except.map_ok, Except.ok_bind, assembled, Except.ok_bind,
    outputKey_of_not_id notId]
  rfl

end Steps

/-! ### Whole filters -/

section Filters

variable {cx : Context} {cls field name : String} {operand : Json} {levels : Nat}

/-- A filter with a single condition on a field becomes a query with a single constraint. -/
theorem result_lower_sole (noName : Combinator.ofName? field = none) (notId : field ≠ idField)
    (plain : cx.schema.reference? cls field = none) (enough : cx.limit = levels + 2)
    (unpaired : (Operand.ofJson operand).pair? = none) {target : String} {value : Json}
    (puts : (plainPart (belowAt cx levels) cls name (.ofJson operand)).result =
      .ok (.own [.put target value])) :
    (lower cx cls (sole field (sole name operand))).result =
      .ok (sole field (sole target value)) := by
  have step : (fieldStep cx (belowAt cx levels) cls field field (.singleton name operand)).result =
      .ok [.merge field (.singleton target value)] :=
    result_fieldStep_singleton plain (isIdField_of_ne notId cls) unpaired puts
  have build : Edit.build [.merge field (.singleton target value)] =
      .singleton field (.obj (.singleton target value)) :=
    Edit.build_put field (.obj (.singleton target value))
  rw [sole, sole, result_lower_field noName enough, step, Except.map_ok, build]
  rfl

/-- An object with one member is no pair. -/
theorem pair?_sole (key : String) (value : Json) :
    (Operand.ofJson (sole key value)).pair? = none := by
  refine Option.eq_none_iff_forall_ne_some.mpr fun pair is => ?_
  rw [sole, Operand.ofJson, Operand.pair?_ofObject] at is
  have written := PathPair.written_of_ofObject? is
  have keyed := written.key
  have holds := written.holds
  rw [Dict.get?_singleton] at keyed holds
  split at keyed
  · next isKey =>
    subst isKey
    cases holds
  · cases keyed

theorem name_ne_idField (operator : Operator) : operator.name ≠ idField := by
  cases operator <;> decide

theorem name_ne_whereKey (operator : Operator) : operator.name ≠ whereKey := by
  cases operator <;> decide

/-- A condition around a condition whose operand becomes a list. -/
theorem result_lower_sole_sole (noName : Combinator.ofName? field = none) (notId : field ≠ idField)
    (plain : cx.schema.reference? cls field = none) (enough : cx.limit = levels + 3)
    {outer inner : Operator} (plain' : cx.schema.reference? cls outer.name = none)
    (other : outer ∉ geographic)
    (unpaired : (Operand.ofJson operand).pair? = none) {items : List Json}
    (encoded : Geo.encode (some inner) (.ofJson operand) = .arr items) :
    (lower cx cls (sole field (sole outer.name (sole inner.name operand)))).result =
      .ok (sole field (sole outer.target (sole inner.target (.arr items)))) := by
  have innerPuts : (plainPart (belowAt cx levels) cls inner.name (.ofJson operand)).result =
      .ok (.own [.put inner.target (.arr items)]) := by
    rw [← targetKey_name]
    refine result_plainPart_of_arr ?_
    rwa [Operator.ofName?_name]
  have inside : ((belowAt cx (levels + 1)).field cls outer.name outer.target
      (.singleton inner.name operand)).result =
        .ok [.merge outer.target (.singleton inner.target (.arr items))] :=
    result_fieldStep_singleton plain' (isIdField_of_ne (name_ne_idField outer) cls) unpaired
      innerPuts
  have outerPuts : (plainPart (belowAt cx (levels + 1)) cls outer.name
      (.ofJson (sole inner.name operand))).result =
        .ok (.own [.put outer.target (sole inner.target (.arr items))]) := by
    rw [← targetKey_name] at inside ⊢
    refine result_plainPart_of_obj (name_ne_whereKey outer) ?_ inside
    rw [Operator.ofName?_name]
    exact encode_of_not_geographic other _
  exact result_lower_sole noName notId plain enough (pair?_sole inner.name operand) outerPuts

/-- **Flat coordinates.** No member is an object or named like an operator. -/
def FlatPoint (point : Object) : Prop :=
  ∀ name value, point.get? name = some value →
    value.isObject = false ∧ Operator.ofName? name = none

/-- A stamp keeps coordinates flat. -/
theorem FlatPoint.stamp {point : Object} (flat : FlatPoint point) :
    FlatPoint (Geo.stamp point) := by
  intro name value found
  by_cases isType : name = Geo.typeKey
  · subst isType
    rw [Geo.stamp] at found
    split at found
    · exact flat _ value found
    · rw [Dict.get?_insert, if_pos rfl] at found
      cases found
      exact ⟨rfl, by decide⟩
  · rw [Geo.get?_stamp_of_ne point isType] at found
    exact flat name value found

/-- Flat coordinates are settled as conditions. -/
theorem FlatPoint.settled {point : Object} (flat : FlatPoint point) (cls field : String) :
    Settled cls 1 (.conditions field) point := by
  constructor
  · intro name value found
    obtain ⟨literal, noOperator⟩ := flat name value found
    refine Place.target_conditions_eq_self_iff.mpr ⟨noOperator, fun object => ?_⟩
    cases literal.symm.trans object
  · intro _ _ name value found
    obtain ⟨literal, -⟩ := flat name value found
    cases value with
    | obj members => cases literal
    | _ => rfl
  · intro name nested found
    obtain ⟨⟨⟩, -⟩ := flat name (.obj nested) found

/-- A coordinate is put under the target with its stamp. -/
theorem result_lower_point (noName : Combinator.ofName? field = none) (notId : field ≠ idField)
    (plain : cx.schema.reference? cls field = none) (enough : cx.limit = levels + 3)
    {operator : Operator} (plain' : cx.schema.reference? cls operator.name = none)
    {point : Object} (unpaired : (Operand.ofJson (.obj point)).pair? = none)
    (flat : FlatPoint point)
    (encoded : Geo.encode (some operator) (.ofJson (.obj point)) = .obj (Geo.stamp point)) :
    (lower cx cls (sole field (sole operator.name (.obj point)))).result =
      .ok (sole field (sole operator.target (.obj (Geo.stamp point)))) := by
  have inside : ((belowAt cx (levels + 1)).field cls operator.name operator.target
      (Geo.stamp point)).result = .ok [.merge operator.target (Geo.stamp point)] :=
    result_fieldStep_of_settled plain' (isIdField_of_ne (name_ne_idField operator) cls)
      (Below.keeps_zero cls _) (flat.stamp.settled cls operator.name) operator.target
  have puts : (plainPart (belowAt cx (levels + 1)) cls operator.name
      (.ofJson (.obj point))).result =
        .ok (.own [.put operator.target (.obj (Geo.stamp point))]) := by
    rw [← targetKey_name] at inside ⊢
    refine result_plainPart_of_obj (name_ne_whereKey operator) ?_ inside
    rwa [Operator.ofName?_name]
  exact result_lower_sole noName notId plain enough unpaired puts

end Filters

/-! ### Coordinates -/

/-- **Coordinates in a query.** What a condition on the field becomes that is on coordinates. -/
structure LowersCoordinates (cx : Context) (cls field : String) : Prop where
  /-- Each object in the list of a polygon is stamped. -/
  polygon : ∀ points,
    (lower cx cls (sole field (sole Operator.polygon.name (.arr points)))).result =
      .ok (sole field (sole Operator.polygon.target (.arr (points.map Geo.stampValue))))
  /-- A box becomes the list of its corners, which are stamped. -/
  box : ∀ members bottomLeft upperRight, PathPair.ofObject? members = none →
    Geo.Corners members bottomLeft upperRight →
    (lower cx cls (sole field (sole Operator.within.name
      (sole Operator.box.name (.obj members))))).result =
        .ok (sole field (sole Operator.within.target (sole Operator.box.target
          (.arr [.obj (Geo.stamp bottomLeft), .obj (Geo.stamp upperRight)]))))
  /-- A sphere without two corners becomes the list of its center, which is stamped, and its
  distance. -/
  centerSphere : ∀ members center distance, PathPair.ofObject? members = none →
    Geo.Centered members center distance →
    (∀ bottomLeft upperRight, ¬ Geo.Corners members bottomLeft upperRight) →
    (lower cx cls (sole field (sole Operator.geoWithin.name
      (sole Operator.centerSphere.name (.obj members))))).result =
        .ok (sole field (sole Operator.geoWithin.target (sole Operator.centerSphere.target
          (.arr [.obj (Geo.stamp center), distance]))))
  /-- A flat coordinate is stamped. -/
  point : ∀ operator ∈ [Operator.nearSphere, .point], ∀ point, PathPair.ofObject? point = none →
    FlatPoint point →
    (lower cx cls (sole field (sole operator.name (.obj point)))).result =
      .ok (sole field (sole operator.target (.obj (Geo.stamp point))))

/-- **Coordinates.** On a field that holds plain values, what a geographic operator leaves in the
query is what its operand is encoded as, and a stamp changes nothing but the type. -/
theorem lower_coordinates (schema : Schema) (codec : Codec) (options : Options)
    {cls field : String} (noName : Combinator.ofName? field = none) (notId : field ≠ idField)
    (plain : schema.link? cls field = none)
    (geo : ∀ operator ∈ [Operator.within, .geoWithin, .nearSphere, .point],
      schema.link? cls operator.name = none)
    (deep : 3 ≤ options.maxDepth) :
    LowersCoordinates (.of schema codec options) cls field ∧
      ∀ point, Geo.Stamped point (Geo.stamp point) := by
  obtain ⟨levels, enough⟩ := Nat.exists_eq_add_of_le' deep
  have plain : schema.reference? cls field = none := Option.map_eq_none_iff.mp plain
  have geo : ∀ operator ∈ [Operator.within, .geoWithin, .nearSphere, .point],
      schema.reference? cls operator.name = none := fun operator mem =>
    Option.map_eq_none_iff.mp (geo operator mem)
  have unpairs {members : Object} (unpaired : PathPair.ofObject? members = none) :
      (Operand.ofJson (.obj members)).pair? = none :=
    (Operand.pair?_ofObject members).trans unpaired
  refine ⟨?_, Geo.stamped_stamp⟩
  constructor
  case polygon =>
    intro points
    exact result_lower_sole noName notId plain enough rfl (result_plainPart_of_arr rfl)
  case box =>
    intro members bottomLeft upperRight unpaired corners
    have encoded := (Geo.encode_ofJson (unpairs unpaired)).1.box members _ _ rfl corners
    exact result_lower_sole_sole noName notId plain enough (geo .within (by decide))
      (by decide) (unpairs unpaired) encoded
  case centerSphere =>
    intro members center distance unpaired centered noCorners
    have encoded :=
      (Geo.encode_ofJson (unpairs unpaired)).1.centerSphere members _ _ rfl centered noCorners
    exact result_lower_sole_sole noName notId plain enough (geo .geoWithin (by decide))
      (by decide) (unpairs unpaired) encoded
  case point =>
    intro operator mem point unpaired flat
    have listed : operator ∈ [Operator.point, .nearSphere] := by
      revert mem
      cases operator <;> decide
    have known : operator ∈ [Operator.within, .geoWithin, .nearSphere, .point] :=
      List.mem_cons_of_mem _ (List.mem_cons_of_mem _ mem)
    have encoded := (Geo.encode_ofJson (unpairs unpaired)).1.point operator listed point rfl
    exact result_lower_point noName notId plain enough (geo operator known) (unpairs unpaired) flat
      encoded

/-! ### Coordinates with operators for members -/

section Harbours

/-- A coordinate with a type of its own, and with members that are named like operators. -/
def typedHarbour : Object :=
  .ofList [("__type", .str "Harbour"), ("in", .obj (.singleton "point" (.obj .nil))),
    ("point", .obj (.ofList [("key", .str "north"), ("value", .num (.int 1))]))]

/-- A coordinate without a type. -/
def bareHarbour : Object := .ofList [("latitude", .num (.int 1)), ("longitude", .num (.int 2))]

/-- A box between the two. -/
def harbours : Object :=
  .ofList [("bottomLeft", .obj typedHarbour), ("upperRight", .obj bareHarbour)]

/-- With three levels to enter, the operators inside a corner are left alone, and only the corner
without a type is stamped. -/
theorem lower_harbours :
    let options : Options := ⟨.strict, 3⟩
    (∀ operator ∈ [Operator.within, .geoWithin, .nearSphere, .point],
      (⟨[]⟩ : Schema).link? "Shop" operator.name = none) ∧
      (lower (.of ⟨[]⟩ .relay options) "Shop"
        (sole "location" (sole "within" (sole "box" (.obj harbours))))).result =
          .ok (sole "location" (sole "$within" (sole "$box"
            (.arr [.obj typedHarbour, .obj (bareHarbour.insert "__type" (.str "GeoPoint"))])))) ∧
      (lower (.of ⟨[]⟩ .relay options) "Shop"
        (sole "location" (sole "nearSphere" (.obj bareHarbour)))).result =
          .ok (sole "location" (sole "$nearSphere"
            (.obj (bareHarbour.insert "__type" (.str "GeoPoint"))))) := by
  intro options
  have noName : Combinator.ofName? "location" = none := rfl
  have notId : "location" ≠ idField := by decide
  have plain (field : String) : (⟨[]⟩ : Schema).link? "Shop" field = none := rfl
  have deep : 3 ≤ options.maxDepth := Nat.le_refl 3
  have corners : Geo.Corners harbours typedHarbour bareHarbour := ⟨rfl, rfl⟩
  have flat : FlatPoint bareHarbour := by
    intro name value found
    have listed : ∀ entry ∈ bareHarbour.toList,
        entry.2.isObject = false ∧ Operator.ofName? entry.1 = none := by decide +kernel
    exact listed (name, value) (Dict.mem_toList.mpr found)
  obtain ⟨lowers, -⟩ := lower_coordinates ⟨[]⟩ .relay options noName notId (plain "location")
    (fun operator _ => plain operator.name) deep
  exact ⟨fun operator _ => plain operator.name, lowers.box harbours _ _ rfl corners,
    lowers.point .nearSphere (by decide) bareHarbour rfl flat⟩

end Harbours

end Lowering

end FilterQuery
