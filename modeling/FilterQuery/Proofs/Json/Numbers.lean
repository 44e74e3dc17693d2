import FilterQuery.Geo
import FilterQuery.Proofs.Dict

/-!
# Values with other numbers

`Json.mapNumbers h` replaces every number of a value by what `h` makes of it and keeps everything
else. The operations on values that lowering is made of pass numbers through: merging
(`Object.merge_mapNumbers`), telling the shapes of operands apart (`Operand.ofJson_mapNumbers`) and,
if `h` keeps zero apart from the other numbers, flags (`Json.isTruthy_mapNumbers`) and with them the
encoding of geographic operands (`Geo.encode_mapNumbers`).
-/

namespace FilterQuery

namespace Json

mutual

/-- **Other numbers.** The value with every number replaced. -/
def mapNumbers (h : Number → Number) : Json → Json
  | .null => .null
  | .bool value => .bool value
  | .num value => .num (h value)
  | .str value => .str value
  | .arr items => .arr (mapItemNumbers h items)
  | .obj members => .obj (mapMemberNumbers h members)

/-- The elements of a list with every number replaced. -/
def mapItemNumbers (h : Number → Number) : List Json → List Json
  | [] => []
  | item :: items => item.mapNumbers h :: mapItemNumbers h items

/-- The members of an object with every number replaced. -/
def mapMemberNumbers (h : Number → Number) {bound : Option String} :
    Dict Json bound → Dict Json bound
  | .nil => .nil
  | .cons key follows value rest =>
    .cons key follows (value.mapNumbers h) (mapMemberNumbers h rest)

end

end Json

section Values

variable (h : Number → Number)

namespace Json

private theorem mapItemNumbers_eq (items : List Json) :
    mapItemNumbers h items = items.map (mapNumbers h) := by
  induction items with
  | nil => rw [mapItemNumbers, List.map_nil]
  | cons item items ih => rw [mapItemNumbers, List.map_cons, ih]

private theorem mapMemberNumbers_eq {bound : Option String} (members : Dict Json bound) :
    mapMemberNumbers h members = members.map (mapNumbers h) := by
  induction members with
  | nil => rw [mapMemberNumbers, Dict.map]
  | cons key follows value rest ih => rw [mapMemberNumbers, Dict.map, ih]

@[simp]
theorem mapNumbers_null : null.mapNumbers h = null := by rw [mapNumbers]

@[simp]
theorem mapNumbers_bool (value : Bool) : (bool value).mapNumbers h = bool value := by
  rw [mapNumbers]

@[simp]
theorem mapNumbers_num (value : Number) : (num value).mapNumbers h = num (h value) := by
  rw [mapNumbers]

@[simp]
theorem mapNumbers_str (value : String) : (str value).mapNumbers h = str value := by
  rw [mapNumbers]

@[simp]
theorem mapNumbers_arr (items : List Json) :
    (arr items).mapNumbers h = arr (items.map (mapNumbers h)) := by
  rw [mapNumbers, mapItemNumbers_eq]

@[simp]
theorem mapNumbers_obj (members : Object) :
    (obj members).mapNumbers h = obj (members.map (mapNumbers h)) := by
  rw [mapNumbers, mapMemberNumbers_eq]

/-- A value is a flag as before, if zero stays apart from the other numbers. -/
theorem isTruthy_mapNumbers {h : Number → Number} (zero : ∀ n, (h n).isZero = n.isZero)
    (value : Json) : (value.mapNumbers h).isTruthy = value.isTruthy := by
  -- A number is the only value whose own truth could change.
  cases value with
  | num value => rw [mapNumbers_num, isTruthy, isTruthy, zero]
  | _ => simp [isTruthy]

end Json

/-- Numbers pass through merging. -/
theorem Object.merge_mapNumbers (parent : Object) (key : String) (members : Object) :
    (parent.merge key members).map (Json.mapNumbers h) =
      Object.merge (parent.map (Json.mapNumbers h)) key (members.map (Json.mapNumbers h)) := by
  rw [Object.merge, Object.merge, Dict.get?_map]
  rcases parent.get? key with _ | value
  · exact (Dict.map_insert ..).trans (by rw [Json.mapNumbers_obj]; rfl)
  · cases value with
    | obj existing => simp [Dict.map_insert, Dict.map_union]
    | _ => simp [Dict.map_insert]

/-! ### Operands -/

/-- The pair with every number replaced. -/
def PathPair.mapNumbers (pair : PathPair) : PathPair :=
  ⟨pair.path, pair.value.mapNumbers h, pair.extra.map (Json.mapNumbers h)⟩

/-- The box with every number replaced. -/
def BoxLiteral.mapNumbers (box : BoxLiteral) : BoxLiteral :=
  ⟨box.bottomLeft.map (Json.mapNumbers h), box.upperRight.map (Json.mapNumbers h),
    box.extra.map (Json.mapNumbers h)⟩

/-- The sphere with every number replaced. -/
def SphereLiteral.mapNumbers (sphere : SphereLiteral) : SphereLiteral :=
  ⟨sphere.center.map (Json.mapNumbers h), sphere.distance.mapNumbers h,
    sphere.extra.map (Json.mapNumbers h)⟩

/-- Numbers do not decide what is a pair. -/
theorem PathPair.ofObject?_mapNumbers (members : Object) :
    ofObject? (members.map (Json.mapNumbers h)) = (ofObject? members).map (mapNumbers h) := by
  unfold ofObject?
  rw [Dict.get?_map, Dict.get?_map]
  rcases members.get? "key" with _ | key
  · rfl
  rcases members.get? "value" with _ | value
  · cases key <;> simp
  cases key with
  | str path =>
    have rest : ((members.map (Json.mapNumbers h)).erase "key").erase "value" =
        ((members.erase "key").erase "value").map (Json.mapNumbers h) := by
      rw [Dict.map_erase, Dict.map_erase]
    cases value with
    | null => simp
    | _ => by_cases empty : path = "" <;> simp [empty, rest, mapNumbers]
  | _ => simp

/-- Numbers do not decide what is a box. -/
theorem BoxLiteral.ofObject?_mapNumbers (members : Object) :
    ofObject? (members.map (Json.mapNumbers h)) = (ofObject? members).map (mapNumbers h) := by
  unfold ofObject?
  rw [Dict.get?_map, Dict.get?_map]
  rcases members.get? "bottomLeft" with _ | bottomLeft
  · rfl
  rcases members.get? "upperRight" with _ | upperRight
  · cases bottomLeft <;> simp
  cases bottomLeft with
  | obj bottomLeft =>
    cases upperRight with
    | obj upperRight => simp [mapNumbers, Dict.map_erase]
    | _ => simp
  | _ => simp

/-- Numbers do not decide what is a sphere. -/
theorem SphereLiteral.ofObject?_mapNumbers (members : Object) :
    ofObject? (members.map (Json.mapNumbers h)) = (ofObject? members).map (mapNumbers h) := by
  unfold ofObject?
  rw [Dict.get?_map, Dict.get?_map]
  rcases members.get? "center" with _ | center
  · rfl
  rcases members.get? "distance" with _ | distance
  · cases center <;> simp
  cases center with
  | obj center =>
    cases distance with
    | null => simp
    | _ => simp [mapNumbers, Dict.map_erase]
  | _ => simp

namespace Operand

/-- The operand with every number replaced. -/
def mapNumbers : Operand → Operand
  | .scalar value => .scalar (value.mapNumbers h)
  | .list items => .list (items.map (Json.mapNumbers h))
  | .pair literal => .pair (literal.mapNumbers h)
  | .box literal => .box (literal.mapNumbers h)
  | .sphere literal => .sphere (literal.mapNumbers h)
  | .object members => .object (members.map (Json.mapNumbers h))

/-- **Shapes.** Numbers do not decide the shape of an operand. -/
theorem ofJson_mapNumbers (value : Json) :
    ofJson (value.mapNumbers h) = (ofJson value).mapNumbers h := by
  cases value with
  | obj members =>
    rw [Json.mapNumbers_obj, ofJson, ofJson, ofObject, ofObject, PathPair.ofObject?_mapNumbers,
      BoxLiteral.ofObject?_mapNumbers, SphereLiteral.ofObject?_mapNumbers]
    rcases PathPair.ofObject? members with _ | pair
    · rcases BoxLiteral.ofObject? members with _ | box
      · rcases SphereLiteral.ofObject? members with _ | sphere
        · rfl
        · rfl
      · rfl
    · rfl
  | _ => simp [ofJson, mapNumbers]

theorem toJson_mapNumbers (operand : Operand) :
    (operand.mapNumbers h).toJson = operand.toJson.mapNumbers h := by
  cases operand with
  | scalar value => rfl
  | list items => rw [mapNumbers, toJson, toJson, Json.mapNumbers_arr]
  | object members => rw [mapNumbers, toJson, toJson, Json.mapNumbers_obj]
  | pair literal =>
    simp [mapNumbers, toJson, PathPair.toObject, PathPair.mapNumbers, Dict.map_insert]
  | box literal =>
    simp [mapNumbers, toJson, BoxLiteral.toObject, BoxLiteral.mapNumbers, Dict.map_insert]
  | sphere literal =>
    simp [mapNumbers, toJson, SphereLiteral.toObject, SphereLiteral.mapNumbers, Dict.map_insert]

theorem pair?_mapNumbers (operand : Operand) :
    (operand.mapNumbers h).pair? = operand.pair?.map (PathPair.mapNumbers h) := by
  cases operand <;> rfl

end Operand

end Values

/-! ### Geographic operands -/

namespace Geo

variable {h : Number → Number} (zero : ∀ n, (h n).isZero = n.isZero)

include zero

theorem stamp_mapNumbers (point : Object) :
    stamp (point.map (Json.mapNumbers h)) = (stamp point).map (Json.mapNumbers h) := by
  have typed : ((point.map (Json.mapNumbers h)).get? typeKey).any Json.isTruthy =
      (point.get? typeKey).any Json.isTruthy := by
    rw [Dict.get?_map]
    rcases point.get? typeKey with _ | type
    · rfl
    · exact Json.isTruthy_mapNumbers zero type
  rw [stamp, stamp, typed]
  split
  · rfl
  · rw [Dict.map_insert, Json.mapNumbers_str]

theorem stampValue_mapNumbers (value : Json) :
    stampValue (value.mapNumbers h) = (stampValue value).mapNumbers h := by
  cases value with
  | obj point => simp [stampValue, stamp_mapNumbers zero]
  | _ => simp [stampValue]

/-- **Encoding.** Numbers pass through the encoding of geographic operands. -/
theorem encode_mapNumbers (operator : Option Operator) (operand : Operand) :
    encode operator (operand.mapNumbers h) = (encode operator operand).mapNumbers h := by
  have kept := operand.toJson_mapNumbers h
  have stamped : stampValue (operand.mapNumbers h).toJson =
      (stampValue operand.toJson).mapNumbers h := by
    rw [kept, stampValue_mapNumbers zero]
  rcases operator with _ | operator
  · exact kept
  cases operator with
  | point | nearSphere => exact stamped
  | box =>
    cases operand with
    | box literal => simp [encode, Operand.mapNumbers, BoxLiteral.mapNumbers, stamp_mapNumbers zero]
    | _ => exact kept
  | polygon =>
    cases operand with
    | list points => simp [encode, Operand.mapNumbers, stampValue_mapNumbers zero]
    | _ => exact kept
  | centerSphere =>
    cases operand with
    | sphere literal =>
      simp [encode, Operand.mapNumbers, SphereLiteral.mapNumbers, stamp_mapNumbers zero]
    | _ => exact kept
  | _ => exact kept

end Geo

end FilterQuery
