import FilterQuery.Json.Basic

/-!
# Operands

The shape of an operand decides how it is lowered. Three shapes of objects are literals:

* a *pair* `{key, value}` with a nonempty path as key and a value that is not null;
* a *box* `{bottomLeft, upperRight}` with two objects as corners;
* a *sphere* `{center, distance}` with an object as center and a distance that is not null.

An object that fits several literals is the first of them in this order. Members beyond those of
the literal are carried along, so `Operand.toJson` gives back every operand as it was.
-/

namespace FilterQuery

/-- **Pairs.** A condition on a path inside an object field. -/
structure PathPair where
  /-- The path inside the field. -/
  path : String
  /-- The operand proper. -/
  value : Json
  /-- The other members. -/
  extra : Object

/-- **Boxes.** A rectangle given by two corners. -/
structure BoxLiteral where
  /-- The lower left corner. -/
  bottomLeft : Object
  /-- The upper right corner. -/
  upperRight : Object
  /-- The other members. -/
  extra : Object

/-- **Spheres.** A circle on the globe given by its center and its radius. -/
structure SphereLiteral where
  /-- The center. -/
  center : Object
  /-- The radius. -/
  distance : Json
  /-- The other members. -/
  extra : Object

/-- **Operands.** A value by its shape. -/
inductive Operand
  /-- Neither list nor object. -/
  | scalar (value : Json)
  /-- A list. -/
  | list (items : List Json)
  /-- A pair of a path and a value. -/
  | pair (literal : PathPair)
  /-- A box. -/
  | box (literal : BoxLiteral)
  /-- A sphere. -/
  | sphere (literal : SphereLiteral)
  /-- An object that is no literal. -/
  | object (members : Object)

/-! ### Literals -/

/-- The pair that an object writes. -/
def PathPair.ofObject? (members : Object) : Option PathPair :=
  match members.get? "key", members.get? "value" with
  | some (.str _), some .null => none
  | some (.str path), some value =>
    if path = "" then none else some ⟨path, value, (members.erase "key").erase "value"⟩
  | _, _ => none

/-- The object that writes a pair. -/
def PathPair.toObject (pair : PathPair) : Object :=
  (pair.extra.insert "key" (.str pair.path)).insert "value" pair.value

/-- The box that an object writes. -/
def BoxLiteral.ofObject? (members : Object) : Option BoxLiteral :=
  match members.get? "bottomLeft", members.get? "upperRight" with
  | some (.obj bottomLeft), some (.obj upperRight) =>
    some ⟨bottomLeft, upperRight, (members.erase "bottomLeft").erase "upperRight"⟩
  | _, _ => none

/-- The object that writes a box. -/
def BoxLiteral.toObject (box : BoxLiteral) : Object :=
  (box.extra.insert "bottomLeft" (.obj box.bottomLeft)).insert "upperRight" (.obj box.upperRight)

/-- The sphere that an object writes. -/
def SphereLiteral.ofObject? (members : Object) : Option SphereLiteral :=
  match members.get? "center", members.get? "distance" with
  | some (.obj _), some .null => none
  | some (.obj center), some distance =>
    some ⟨center, distance, (members.erase "center").erase "distance"⟩
  | _, _ => none

/-- The object that writes a sphere. -/
def SphereLiteral.toObject (sphere : SphereLiteral) : Object :=
  (sphere.extra.insert "center" (.obj sphere.center)).insert "distance" sphere.distance

/-! ### Shapes -/

namespace Operand

/-- The shape of an object. -/
def ofObject (members : Object) : Operand :=
  match PathPair.ofObject? members with
  | some literal => .pair literal
  | none => match BoxLiteral.ofObject? members with
    | some literal => .box literal
    | none => match SphereLiteral.ofObject? members with
      | some literal => .sphere literal
      | none => .object members

/-- **Shapes.** The value as an operand. -/
def ofJson : Json → Operand
  | .arr items => .list items
  | .obj members => ofObject members
  | value => .scalar value

/-- The operand as a value. -/
def toJson : Operand → Json
  | .scalar value => value
  | .list items => .arr items
  | .pair literal => .obj literal.toObject
  | .box literal => .obj literal.toObject
  | .sphere literal => .obj literal.toObject
  | .object members => .obj members

/-- The pair that an operand is. -/
def pair? : Operand → Option PathPair
  | .pair literal => some literal
  | _ => none

end Operand

end FilterQuery
