import FilterQuery.Operand
import FilterQuery.Vocabulary.Operator

/-!
# Geographic operands

A query tells a coordinate from any other object by its member `__type`, which is `GeoPoint`.
`Geo.stamp` puts it there. `Geo.encode` stamps the coordinates in the operand of a geographic
operator; boxes and spheres become lists of two, as queries expect them. An operand of another
operator, or of another shape than its operator takes, stays as it is.
-/

namespace FilterQuery.Geo

/-- The member that tells a coordinate from other objects. -/
def typeKey : String := "__type"

/-- The value of that member. -/
def pointType : String := "GeoPoint"

/-- **Stamping.** The coordinate with its type, unless it has a truthy one already. -/
def stamp (point : Object) : Object :=
  if (point.get? typeKey).any Json.isTruthy then point
  else point.insert typeKey (.str pointType)

/-- The value, stamped if it is an object. -/
def stampValue : Json → Json
  | .obj point => .obj (stamp point)
  | value => value

/-- **Encoding.** The operand of an operator as a query takes it. -/
def encode : Option Operator → Operand → Json
  | some .point, operand => stampValue operand.toJson
  | some .nearSphere, operand => stampValue operand.toJson
  | some .box, .box literal =>
    .arr [.obj (stamp literal.bottomLeft), .obj (stamp literal.upperRight)]
  | some .polygon, .list points => .arr (points.map stampValue)
  | some .centerSphere, .sphere literal => .arr [.obj (stamp literal.center), literal.distance]
  | _, operand => operand.toJson

/-- Stamping changes no member but the type. -/
theorem get?_stamp_of_ne (point : Object) {key : String} (ne : key ≠ typeKey) :
    (stamp point).get? key = point.get? key := by
  rw [stamp]
  split
  · rfl
  · simp [ne]

/-- A stamped coordinate has a truthy type. -/
theorem any_isTruthy_stamp (point : Object) :
    ((stamp point).get? typeKey).any Json.isTruthy := by
  rw [stamp]
  split
  · assumption
  · simp [Json.isTruthy, pointType]

end FilterQuery.Geo
