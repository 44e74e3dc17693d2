import FilterQuery.Geo
import FilterQuery.Proofs.Operand

/-!
# Encoding by the name of the operator

What an operand is encoded as is told by the name of its operator and by the members that the
operator asks for: two corners for a box, a center and a distance for a sphere
(`Geo.encode_ofJson`). Other members are no obstacle, and they are left behind with the object.

There is one exception. The shape of an operand is found before its operator is looked at, and an
object with two corners is a box, whatever else it has. So the operator of spheres leaves a sphere
as it is that has two corners besides (`Geo.encode_corneredSphere`).
-/

namespace FilterQuery

namespace Geo

/-! ### Literals by their members -/

/-- **Corners.** The object has the members of a box. -/
structure Corners (members bottomLeft upperRight : Object) : Prop where
  /-- The lower left corner is an object. -/
  lower : members.get? "bottomLeft" = some (.obj bottomLeft)
  /-- The upper right corner is an object. -/
  upper : members.get? "upperRight" = some (.obj upperRight)

/-- **Centers.** The object has the members of a sphere. -/
structure Centered (members center : Object) (distance : Json) : Prop where
  /-- The center is an object. -/
  middle : members.get? "center" = some (.obj center)
  /-- There is a distance. -/
  radius : members.get? "distance" = some distance
  /-- The distance is not null. -/
  notNull : distance ≠ .null

section Literals

variable {members : Object}

theorem ofObject?_of_corners {bottomLeft upperRight : Object}
    (corners : Corners members bottomLeft upperRight) :
    BoxLiteral.ofObject? members =
      some ⟨bottomLeft, upperRight, (members.erase "bottomLeft").erase "upperRight"⟩ := by
  rw [BoxLiteral.ofObject?, corners.lower, corners.upper]

theorem corners_of_ofObject? {literal : BoxLiteral}
    (h : BoxLiteral.ofObject? members = some literal) :
    Corners members literal.bottomLeft literal.upperRight := by
  unfold BoxLiteral.ofObject? at h
  split at h
  · next left right =>
    cases h
    exact ⟨left, right⟩
  · cases h

theorem ofObject?_of_centered {center : Object} {distance : Json}
    (centered : Centered members center distance) :
    SphereLiteral.ofObject? members =
      some ⟨center, distance, (members.erase "center").erase "distance"⟩ := by
  rw [SphereLiteral.ofObject?, centered.middle, centered.radius]
  cases distance with
  | null => exact absurd rfl centered.notNull
  | _ => rfl

theorem centered_of_ofObject? {literal : SphereLiteral}
    (h : SphereLiteral.ofObject? members = some literal) :
    Centered members literal.center literal.distance := by
  unfold SphereLiteral.ofObject? at h
  split at h
  · cases h
  · next notNull center distance =>
    cases h
    exact ⟨center, distance, notNull⟩
  · cases h

/-! ### Shapes by their members -/

/-- What is no pair and has two corners is a box. -/
theorem ofObject_of_corners (unpaired : PathPair.ofObject? members = none)
    {bottomLeft upperRight : Object} (corners : Corners members bottomLeft upperRight) :
    ∃ extra, Operand.ofObject members = .box ⟨bottomLeft, upperRight, extra⟩ := by
  rw [Operand.ofObject, unpaired, ofObject?_of_corners corners]
  exact ⟨_, rfl⟩

/-- What is neither a pair nor a box and has a center and a distance is a sphere. -/
theorem ofObject_of_centered (unpaired : PathPair.ofObject? members = none)
    (noCorners : ∀ bottomLeft upperRight, ¬ Corners members bottomLeft upperRight)
    {center : Object} {distance : Json} (centered : Centered members center distance) :
    ∃ extra, Operand.ofObject members = .sphere ⟨center, distance, extra⟩ := by
  have noBox : BoxLiteral.ofObject? members = none := by
    rcases box : BoxLiteral.ofObject? members with _ | literal
    · rfl
    · exact absurd (corners_of_ofObject? box) (noCorners _ _)
  rw [Operand.ofObject, unpaired, noBox, ofObject?_of_centered centered]
  exact ⟨_, rfl⟩

end Literals

/-- A box has two corners. -/
theorem exists_corners_of_ofJson {value : Json} {literal : BoxLiteral}
    (h : Operand.ofJson value = .box literal) :
    ∃ members, value = .obj members ∧ Corners members literal.bottomLeft literal.upperRight := by
  cases value with
  | obj members =>
    have is : Operand.ofObject members = .box literal := h
    obtain ⟨_, -, shape⟩ | ⟨-, ⟨box, found, shape⟩ | ⟨_, -, shape⟩ | shape⟩ :=
      Operand.ofObject_cases members
    · cases shape.symm.trans is
    · cases shape.symm.trans is
      exact ⟨members, rfl, corners_of_ofObject? found⟩
    · cases shape.symm.trans is
    · cases shape.symm.trans is
  | _ => cases h

/-- A sphere has a center and a distance. -/
theorem exists_centered_of_ofJson {value : Json} {literal : SphereLiteral}
    (h : Operand.ofJson value = .sphere literal) :
    ∃ members, value = .obj members ∧ Centered members literal.center literal.distance := by
  cases value with
  | obj members =>
    have is : Operand.ofObject members = .sphere literal := h
    obtain ⟨_, -, shape⟩ | ⟨-, ⟨_, -, shape⟩ | ⟨sphere, found, shape⟩ | shape⟩ :=
      Operand.ofObject_cases members
    · cases shape.symm.trans is
    · cases shape.symm.trans is
    · cases shape.symm.trans is
      exact ⟨members, rfl, centered_of_ofObject? found⟩
    · cases shape.symm.trans is
  | _ => cases h

/-- Only lists are lists. -/
theorem eq_arr_of_ofJson {value : Json} {points : List Json}
    (h : Operand.ofJson value = .list points) : value = .arr points := by
  rw [← Operand.toJson_ofJson value, h, Operand.toJson]

/-! ### The law -/

/-- **Operands of geographic operators.** The operator asks for a value of this form. -/
inductive Takes : Operator → Json → Prop
  /-- A coordinate is an object. -/
  | point (members : Object) : Takes .point (.obj members)
  /-- So is the center of a search. -/
  | nearSphere (members : Object) : Takes .nearSphere (.obj members)
  /-- A box has two corners. -/
  | box {members bottomLeft upperRight : Object}
    (corners : Corners members bottomLeft upperRight) : Takes .box (.obj members)
  /-- A polygon is a list. -/
  | polygon (points : List Json) : Takes .polygon (.arr points)
  /-- A sphere has a center and a distance. -/
  | centerSphere {members center : Object} {distance : Json}
    (centered : Centered members center distance) : Takes .centerSphere (.obj members)

/-- **Encoding by name.** What the value is encoded as under each operator. -/
structure EncodedByName (value : Json) : Prop where
  /-- A coordinate is stamped. -/
  point : ∀ operator ∈ [Operator.point, .nearSphere], ∀ members, value = .obj members →
    encode (some operator) (.ofJson value) = .obj (stamp members)
  /-- A box becomes the list of its corners, which are stamped. -/
  box : ∀ members bottomLeft upperRight, value = .obj members →
    Corners members bottomLeft upperRight →
    encode (some .box) (.ofJson value) = .arr [.obj (stamp bottomLeft), .obj (stamp upperRight)]
  /-- Each point of a polygon is stamped if it is an object. -/
  polygon : ∀ points, value = .arr points →
    encode (some .polygon) (.ofJson value) = .arr (points.map stampValue)
  /-- A sphere without two corners becomes the list of its center, which is stamped, and its
  distance. -/
  centerSphere : ∀ members center distance, value = .obj members →
    Centered members center distance →
    (∀ bottomLeft upperRight, ¬ Corners members bottomLeft upperRight) →
    encode (some .centerSphere) (.ofJson value) = .arr [.obj (stamp center), distance]
  /-- What has two corners stays, be it a sphere or not. -/
  cornered : ∀ members bottomLeft upperRight, value = .obj members →
    Corners members bottomLeft upperRight →
    encode (some .centerSphere) (.ofJson value) = value
  /-- An operator that asks for another form, or for none, leaves the value as it is. -/
  other : ∀ operator, (∀ name, operator = some name → ¬ Takes name value) →
    encode operator (.ofJson value) = value

/-- **Stamps.** The second object is the first one with the type of a coordinate. -/
structure Stamped (point stamped : Object) : Prop where
  /-- A truthy type stays. -/
  kept : (point.get? typeKey).any Json.isTruthy → stamped = point
  /-- Any other one, or none, gives way to that of coordinates. -/
  typed : ¬ (point.get? typeKey).any Json.isTruthy → stamped.get? typeKey = some (.str pointType)
  /-- No other member changes. -/
  others : ∀ key, key ≠ typeKey → stamped.get? key = point.get? key

theorem stamped_stamp (point : Object) : Stamped point (stamp point) where
  kept truthy := if_pos truthy
  typed falsy := by
    rw [stamp, if_neg falsy, Dict.get?_insert, if_pos rfl]
  others _ ne := get?_stamp_of_ne point ne

/-- What no operator asks for stays. -/
theorem encode_of_not_takes {operator : Option Operator} {value : Json}
    (not : ∀ name, operator = some name → ¬ Takes name value) :
    encode operator (.ofJson value) = value := by
  have stays (takes : ∀ members, value = .obj members → False) : stampValue value = value := by
    cases value with
    | obj members => exact (takes members rfl).elim
    | _ => rfl
  unfold encode
  split
  · rw [Operand.toJson_ofJson]
    refine stays fun members eq => not .point rfl ?_
    exact eq ▸ .point members
  · rw [Operand.toJson_ofJson]
    refine stays fun members eq => not .nearSphere rfl ?_
    exact eq ▸ .nearSphere members
  · next literal shape =>
    obtain ⟨members, rfl, corners⟩ := exists_corners_of_ofJson shape
    exact absurd (.box corners) (not .box rfl)
  · next points shape =>
    cases eq_arr_of_ofJson shape
    exact absurd (.polygon points) (not .polygon rfl)
  · next literal shape =>
    obtain ⟨members, rfl, centered⟩ := exists_centered_of_ofJson shape
    exact absurd (.centerSphere centered) (not .centerSphere rfl)
  · exact Operand.toJson_ofJson value

/-- A value stays as it is, or is stamped, or gives way to a list. -/
theorem encode_cases (operator : Option Operator) (value : Json) :
    encode operator (.ofJson value) = value ∨
      (∃ members, value = .obj members ∧
        encode operator (.ofJson value) = .obj (stamp members)) ∨
      value ≠ .null ∧ ∃ items, encode operator (.ofJson value) = .arr items := by
  have stamped : stampValue value = value ∨
      ∃ members, value = .obj members ∧ stampValue value = .obj (stamp members) := by
    cases value with
    | obj members => exact .inr ⟨members, rfl, rfl⟩
    | _ => exact .inl rfl
  have notNull {operand : Operand} (shape : Operand.ofJson value = operand)
      (ne : operand ≠ .scalar .null) : value ≠ .null := by
    rintro rfl
    exact ne shape.symm
  unfold encode
  split
  · rw [Operand.toJson_ofJson]
    exact stamped.imp_right .inl
  · rw [Operand.toJson_ofJson]
    exact stamped.imp_right .inl
  · next literal shape => exact .inr (.inr ⟨notNull shape nofun, _, rfl⟩)
  · next points shape => exact .inr (.inr ⟨notNull shape nofun, _, rfl⟩)
  · next literal shape => exact .inr (.inr ⟨notNull shape nofun, _, rfl⟩)
  · exact .inl (Operand.toJson_ofJson value)

/-- **Encoding.** A value that is no pair is encoded as the name of its operator tells, and stamping
a coordinate changes its type alone. -/
theorem encode_ofJson {value : Json} (unpaired : (Operand.ofJson value).pair? = none) :
    EncodedByName value ∧ ∀ point, Stamped point (stamp point) := by
  have noPair : ∀ members, value = .obj members → PathPair.ofObject? members = none := by
    rintro members rfl
    exact (Operand.pair?_ofObject members).symm.trans unpaired
  refine ⟨?_, stamped_stamp⟩
  constructor
  case point =>
    rintro operator mem members rfl
    have stamped : stampValue (Operand.ofJson (.obj members)).toJson = .obj (stamp members) := by
      rw [Operand.toJson_ofJson, stampValue]
    rcases List.mem_cons.mp mem with rfl | mem
    · exact stamped
    · rw [List.mem_singleton.mp mem]
      exact stamped
  case box =>
    rintro members bottomLeft upperRight rfl corners
    obtain ⟨extra, shape⟩ := ofObject_of_corners (noPair members rfl) corners
    rw [Operand.ofJson, shape]
    rfl
  case polygon =>
    rintro points rfl
    rfl
  case centerSphere =>
    rintro members center distance rfl centered noCorners
    obtain ⟨extra, shape⟩ := ofObject_of_centered (noPair members rfl) noCorners centered
    rw [Operand.ofJson, shape]
    rfl
  case cornered =>
    rintro members bottomLeft upperRight rfl corners
    obtain ⟨extra, shape⟩ := ofObject_of_corners (noPair members rfl) corners
    have whole := Operand.toJson_ofObject members
    rw [shape] at whole
    rw [Operand.ofJson, shape]
    exact whole
  case other => exact fun operator not => encode_of_not_takes not

/-! ### A sphere with corners -/

/-- A place on the equator. -/
def equator : Object := .singleton "latitude" (.num (.int 0))

/-- A sphere that carries two corners along. -/
def corneredSphere : Object :=
  .ofList [("bottomLeft", .obj .nil), ("center", .obj equator), ("distance", .num (.int 3)),
    ("upperRight", .obj .nil)]

/-- It is a box with a center and a distance to the operator of boxes, and nothing to that of
spheres. -/
theorem encode_corneredSphere_box :
    let corner : Object := .singleton "__type" (.str "GeoPoint")
    (Operand.ofJson (.obj corneredSphere)).pair? = none ∧
      encode (some .box) (.ofJson (.obj corneredSphere)) = .arr [.obj corner, .obj corner] ∧
      encode (some .centerSphere) (.ofJson (.obj corneredSphere)) = .obj corneredSphere := by
  intro corner
  have unpaired : (Operand.ofJson (.obj corneredSphere)).pair? = none := rfl
  have corners : Corners corneredSphere .nil .nil := ⟨rfl, rfl⟩
  obtain ⟨encoded, -⟩ := encode_ofJson unpaired
  exact ⟨unpaired, encoded.box _ _ _ rfl corners, encoded.cornered _ _ _ rfl corners⟩

/-- A center and a distance do not make a sphere of it. -/
theorem encode_corneredSphere :
    (Operand.ofJson (.obj corneredSphere)).pair? = none ∧
      Centered corneredSphere equator (.num (.int 3)) ∧
      encode (some .centerSphere) (.ofJson (.obj corneredSphere)) ≠
        .arr [.obj (stamp equator), .num (.int 3)] := by
  refine ⟨rfl, ⟨rfl, rfl, nofun⟩, ?_⟩
  have whole : encode (some .centerSphere) (.ofJson (.obj corneredSphere)) =
      .obj corneredSphere := rfl
  rw [whole]
  exact nofun

end Geo

end FilterQuery
