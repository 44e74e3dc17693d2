import FilterQuery.Proofs.Geo

/-!
# Shapes of values

The shape of a value is told by what the value is and, for an object, by the members that the
literals ask for (`Operand.Shape`). Other members do not count, and they come along with the shape.

Reading a shape can be done in place. An object is tested for a literal; if it passes, the two
members of the literal are removed from it, one after the other, and read; if it does not, it is
tested for the next one. An object that passed a test without being read would go on without two of
its members. This does not happen, since each test passes only what can be read
(`Operand.Taking.run_eq`), and so nothing of a value is lost in its shape (`Operand.ofJson_whole`).
-/

namespace FilterQuery

namespace Operand

/-! ### Shapes by members -/

/-- **Shapes.** The shape of a value. An object is the first literal whose members it has. -/
inductive Shape : Json → Operand → Prop
  /-- Neither list nor object. -/
  | scalar {value : Json} (noList : ∀ items, value ≠ .arr items)
    (noObject : ∀ members, value ≠ .obj members) : Shape value (.scalar value)
  /-- A list. -/
  | list (items : List Json) : Shape (.arr items) (.list items)
  /-- An object with a path and a value. -/
  | pair {members : Object} {path : String} {value : Json}
    (written : PathPair.Written members path value) :
    Shape (.obj members) (.pair ⟨path, value, (members.erase "key").erase "value"⟩)
  /-- Another object with two corners. -/
  | box {members bottomLeft upperRight : Object}
    (unpaired : ∀ path value, ¬ PathPair.Written members path value)
    (corners : Geo.Corners members bottomLeft upperRight) :
    Shape (.obj members)
      (.box ⟨bottomLeft, upperRight, (members.erase "bottomLeft").erase "upperRight"⟩)
  /-- Another object with a center and a distance. -/
  | sphere {members center : Object} {distance : Json}
    (unpaired : ∀ path value, ¬ PathPair.Written members path value)
    (noCorners : ∀ bottomLeft upperRight, ¬ Geo.Corners members bottomLeft upperRight)
    (centered : Geo.Centered members center distance) :
    Shape (.obj members)
      (.sphere ⟨center, distance, (members.erase "center").erase "distance"⟩)
  /-- Any other object. -/
  | object {members : Object}
    (unpaired : ∀ path value, ¬ PathPair.Written members path value)
    (noCorners : ∀ bottomLeft upperRight, ¬ Geo.Corners members bottomLeft upperRight)
    (noCenter : ∀ center distance, ¬ Geo.Centered members center distance) :
    Shape (.obj members) (.object members)

/-- The shape of an object is told by its members. -/
theorem shape_ofObject (members : Object) : Shape (.obj members) (ofObject members) := by
  by_cases paired : ∃ path value, PathPair.Written members path value
  · obtain ⟨path, value, written⟩ := paired
    rw [ofObject, PathPair.ofObject?_of_written written]
    exact .pair written
  have unpaired (path : String) (value : Json) : ¬ PathPair.Written members path value :=
    fun written => paired ⟨path, value, written⟩
  have noPair : PathPair.ofObject? members = none :=
    Option.eq_none_iff_forall_ne_some.mpr fun _ found =>
      unpaired _ _ (PathPair.written_of_ofObject? found)
  by_cases cornered : ∃ bottomLeft upperRight, Geo.Corners members bottomLeft upperRight
  · obtain ⟨bottomLeft, upperRight, corners⟩ := cornered
    rw [ofObject, noPair, Geo.ofObject?_of_corners corners]
    exact .box unpaired corners
  have noCorners (bottomLeft upperRight : Object) : ¬ Geo.Corners members bottomLeft upperRight :=
    fun corners => cornered ⟨bottomLeft, upperRight, corners⟩
  have noBox : BoxLiteral.ofObject? members = none :=
    Option.eq_none_iff_forall_ne_some.mpr fun _ found =>
      noCorners _ _ (Geo.corners_of_ofObject? found)
  by_cases round : ∃ center distance, Geo.Centered members center distance
  · obtain ⟨center, distance, centered⟩ := round
    rw [ofObject, noPair, noBox, Geo.ofObject?_of_centered centered]
    exact .sphere unpaired noCorners centered
  have noCenter (center : Object) (distance : Json) : ¬ Geo.Centered members center distance :=
    fun centered => round ⟨center, distance, centered⟩
  have noSphere : SphereLiteral.ofObject? members = none :=
    Option.eq_none_iff_forall_ne_some.mpr fun _ found =>
      noCenter _ _ (Geo.centered_of_ofObject? found)
  rw [ofObject, noPair, noBox, noSphere]
  exact .object unpaired noCorners noCenter

/-! ### Reading in place -/

/-- **Takings.** How a literal is taken out of an object: by a test of the object, and by reading
two members once they are removed from it. -/
structure Taking (α : Type) where
  /-- The test. -/
  fits : Object → Bool
  /-- The member that is removed first. -/
  first : String
  /-- The member that is removed second. -/
  second : String
  /-- Reads what was removed, and what is left of the object. -/
  read : Option Json → Option Json → Object → Option α

/-- The literal, or the object that is left if there is none. -/
def Taking.run {α : Type} (taking : Taking α) (members : Object) : α ⊕ Object :=
  if taking.fits members then
    let rest := members.erase taking.first
    let left := rest.erase taking.second
    match taking.read (members.get? taking.first) (rest.get? taking.second) left with
    | some literal => .inl literal
    | none => .inr left
  else .inr members

/-- **Safe tests.** If the test passes exactly the objects that have a literal, and the literal is
read from each of them, an object without it is left as it was. -/
theorem Taking.run_eq {α : Type} {taking : Taking α} {found : Object → Option α}
    (ne : taking.second ≠ taking.first)
    (fits : ∀ members, taking.fits members = (found members).isSome)
    (reads : ∀ members literal, found members = some literal →
      taking.read (members.get? taking.first) (members.get? taking.second)
        ((members.erase taking.first).erase taking.second) = some literal)
    (members : Object) : taking.run members = (found members).elim (.inr members) .inl := by
  have second : (members.erase taking.first).get? taking.second = members.get? taking.second := by
    rw [Dict.get?_erase, if_neg ne]
  rw [run, fits members]
  rcases has : found members with _ | literal
  · rfl
  · dsimp only
    rw [second, reads members literal has]
    rfl

/-- Taking out a pair. -/
def takePair : Taking PathPair where
  fits members :=
    (members.get? "key").any (fun
      | .str path => path ≠ ""
      | _ => false) &&
    (members.get? "value").any (· ≠ .null)
  first := "key"
  second := "value"
  read
    | some (.str path), some value, rest => some ⟨path, value, rest⟩
    | _, _, _ => none

/-- Taking out a box. -/
def takeBox : Taking BoxLiteral where
  fits members :=
    (members.get? "bottomLeft").any Json.isObject && (members.get? "upperRight").any Json.isObject
  first := "bottomLeft"
  second := "upperRight"
  read
    | some (.obj bottomLeft), some (.obj upperRight), rest => some ⟨bottomLeft, upperRight, rest⟩
    | _, _, _ => none

/-- Taking out a sphere. -/
def takeSphere : Taking SphereLiteral where
  fits members :=
    (members.get? "center").any Json.isObject && (members.get? "distance").any (· ≠ .null)
  first := "center"
  second := "distance"
  read
    | some (.obj center), some distance, rest => some ⟨center, distance, rest⟩
    | _, _, _ => none

theorem run_takePair (members : Object) :
    takePair.run members = (PathPair.ofObject? members).elim (.inr members) .inl := by
  refine Taking.run_eq (by decide) (fun members => ?_) (fun members literal found => ?_) members
  · unfold takePair PathPair.ofObject?
    dsimp only
    rcases members.get? "key" with _ | key
    · rfl
    · cases key with
      | str path =>
        rcases members.get? "value" with _ | value
        · simp
        · cases value <;> by_cases empty : path = "" <;> simp [empty]
      | _ => rcases members.get? "value" with _ | value <;> simp
  · have written := PathPair.written_of_ofObject? found
    rw [← found, PathPair.ofObject?_of_written written]
    simp only [takePair, written.key, written.holds]

theorem run_takeBox (members : Object) :
    takeBox.run members = (BoxLiteral.ofObject? members).elim (.inr members) .inl := by
  refine Taking.run_eq (by decide) (fun members => ?_) (fun members literal found => ?_) members
  · unfold takeBox BoxLiteral.ofObject?
    dsimp only
    rcases members.get? "bottomLeft" with _ | bottomLeft
    · rfl
    · rcases members.get? "upperRight" with _ | upperRight
      · cases bottomLeft <;> simp
      · cases bottomLeft <;> cases upperRight <;> simp [Json.isObject]
  · have corners := Geo.corners_of_ofObject? found
    rw [← found, Geo.ofObject?_of_corners corners]
    simp only [takeBox, corners.lower, corners.upper]

theorem run_takeSphere (members : Object) :
    takeSphere.run members = (SphereLiteral.ofObject? members).elim (.inr members) .inl := by
  refine Taking.run_eq (by decide) (fun members => ?_) (fun members literal found => ?_) members
  · unfold takeSphere SphereLiteral.ofObject?
    dsimp only
    rcases members.get? "center" with _ | center
    · rfl
    · rcases members.get? "distance" with _ | distance
      · cases center <;> simp
      · cases center <;> cases distance <;> simp [Json.isObject]
  · have centered := Geo.centered_of_ofObject? found
    rw [← found, Geo.ofObject?_of_centered centered]
    simp only [takeSphere, centered.middle, centered.radius]

/-- The shape of an object, with the literals taken out in place. -/
def ofObjectInPlace (members : Object) : Operand :=
  match takePair.run members with
  | .inl literal => .pair literal
  | .inr members => match takeBox.run members with
    | .inl literal => .box literal
    | .inr members => match takeSphere.run members with
      | .inl literal => .sphere literal
      | .inr members => .object members

/-- The shape of a value, with the literals taken out in place. -/
def ofJsonInPlace : Json → Operand
  | .arr items => .list items
  | .obj members => ofObjectInPlace members
  | value => .scalar value

theorem ofObjectInPlace_eq (members : Object) : ofObjectInPlace members = ofObject members := by
  rw [ofObjectInPlace, ofObject, run_takePair]
  rcases PathPair.ofObject? members with _ | literal
  · dsimp only [Option.elim]
    rw [run_takeBox]
    rcases BoxLiteral.ofObject? members with _ | literal
    · dsimp only [Option.elim]
      rw [run_takeSphere]
      cases SphereLiteral.ofObject? members <;> rfl
    · rfl
  · rfl

/-! ### Nothing is lost -/

/-- **Wholeness.** The shape of a value is the one that its members tell, also where the literals
are taken out in place, and it gives back the value. -/
theorem ofJson_whole (value : Json) :
    Shape value (ofJson value) ∧ ofJsonInPlace value = ofJson value ∧
      (ofJson value).toJson = value ∧ (ofJsonInPlace value).toJson = value := by
  have shape : Shape value (ofJson value) := by
    cases value with
    | arr items => exact .list items
    | obj members => exact shape_ofObject members
    | _ => exact .scalar nofun nofun
  have same : ofJsonInPlace value = ofJson value := by
    cases value with
    | obj members => exact ofObjectInPlace_eq members
    | _ => rfl
  refine ⟨shape, same, toJson_ofJson value, ?_⟩
  rw [same]
  exact toJson_ofJson value

end Operand

end FilterQuery
