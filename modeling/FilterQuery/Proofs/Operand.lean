import FilterQuery.Operand

/-!
# Operands as values

Taking the two members of a literal out of an object and putting them back gives the object, so
an operand stands for exactly one value (`Operand.toJson_ofJson`).
-/

namespace FilterQuery

/-- Two members that are taken out and put back were there all along. -/
private theorem insert_insert_erase_erase {members : Object} {first second : String}
    {a b : Json} (ha : members.get? first = some a) (hb : members.get? second = some b) :
    (((members.erase first).erase second).insert first a).insert second b = members := by
  refine Dict.ext_get? fun key => ?_
  rw [Dict.get?_insert, Dict.get?_insert, Dict.get?_erase, Dict.get?_erase]
  by_cases h2 : key = second
  · rw [if_pos h2, h2, hb]
  · by_cases h1 : key = first
    · rw [if_neg h2, if_pos h1, h1, ha]
    · rw [if_neg h2, if_neg h1, if_neg h2, if_neg h1]

/-- A pair writes the object that it was read from. -/
theorem PathPair.toObject_of_ofObject? {members : Object} {pair : PathPair}
    (h : ofObject? members = some pair) : pair.toObject = members := by
  unfold ofObject? at h
  split at h
  · cases h
  · next path value _ hkey hvalue =>
    split at h
    · cases h
    · cases h
      exact insert_insert_erase_erase hkey hvalue
  · cases h

/-- **Pairs.** The object has the members of a pair. -/
structure PathPair.Written (members : Object) (path : String) (value : Json) : Prop where
  /-- The path is a text. -/
  key : members.get? "key" = some (.str path)
  /-- The path is not empty. -/
  nonempty : path ≠ ""
  /-- There is a value. -/
  holds : members.get? "value" = some value
  /-- The value is not null. -/
  notNull : value ≠ .null

/-- What an object is as a pair, its members tell. -/
theorem PathPair.written_of_ofObject? {members : Object} {pair : PathPair}
    (h : ofObject? members = some pair) : Written members pair.path pair.value := by
  unfold ofObject? at h
  split at h
  · cases h
  · next path value notNull key holds =>
    split at h
    · cases h
    · next nonempty =>
      cases h
      exact ⟨key, nonempty, holds, notNull⟩
  · cases h

/-- The pair that an object with a path and a value writes. -/
theorem PathPair.ofObject?_of_written {members : Object} {path : String} {value : Json}
    (written : Written members path value) :
    ofObject? members = some ⟨path, value, (members.erase "key").erase "value"⟩ := by
  rw [ofObject?, written.key, written.holds]
  cases value with
  | null => exact absurd rfl written.notNull
  | _ => exact if_neg written.nonempty

/-- A box writes the object that it was read from. -/
theorem BoxLiteral.toObject_of_ofObject? {members : Object} {box : BoxLiteral}
    (h : ofObject? members = some box) : box.toObject = members := by
  unfold ofObject? at h
  split at h
  · next bottomLeft upperRight hleft hright =>
    cases h
    exact insert_insert_erase_erase hleft hright
  · cases h

/-- A sphere writes the object that it was read from. -/
theorem SphereLiteral.toObject_of_ofObject? {members : Object} {sphere : SphereLiteral}
    (h : ofObject? members = some sphere) : sphere.toObject = members := by
  unfold ofObject? at h
  split at h
  · cases h
  · next center distance _ hcenter hdistance =>
    cases h
    exact insert_insert_erase_erase hcenter hdistance
  · cases h

namespace Operand

/-- **Shapes of objects.** An object is the first literal that it writes, and pairs come first. -/
theorem ofObject_cases (members : Object) :
    (∃ pair, PathPair.ofObject? members = some pair ∧ ofObject members = .pair pair) ∨
      PathPair.ofObject? members = none ∧
        ((∃ box, BoxLiteral.ofObject? members = some box ∧ ofObject members = .box box) ∨
          (∃ sphere, SphereLiteral.ofObject? members = some sphere ∧
            ofObject members = .sphere sphere) ∨
          ofObject members = .object members) := by
  unfold ofObject
  split
  · next pair h => exact .inl ⟨pair, h, rfl⟩
  · next h =>
    refine .inr ⟨h, ?_⟩
    split
    · next box h => exact .inl ⟨box, h, rfl⟩
    · split
      · next sphere h => exact .inr (.inl ⟨sphere, h, rfl⟩)
      · exact .inr (.inr rfl)

/-- The shape of an object stands for the object. -/
theorem toJson_ofObject (members : Object) : (ofObject members).toJson = .obj members := by
  obtain ⟨pair, h, shape⟩ | ⟨-, ⟨box, h, shape⟩ | ⟨sphere, h, shape⟩ | shape⟩ :=
    ofObject_cases members
  · rw [shape, toJson, PathPair.toObject_of_ofObject? h]
  · rw [shape, toJson, BoxLiteral.toObject_of_ofObject? h]
  · rw [shape, toJson, SphereLiteral.toObject_of_ofObject? h]
  · rw [shape, toJson]

/-- An object is a pair if it writes one. -/
theorem pair?_ofObject (members : Object) :
    (ofObject members).pair? = PathPair.ofObject? members := by
  obtain ⟨pair, h, shape⟩ | ⟨none, ⟨box, -, shape⟩ | ⟨sphere, -, shape⟩ | shape⟩ :=
    ofObject_cases members
  · rw [shape, h]
    rfl
  · rw [shape, none]
    rfl
  · rw [shape, none]
    rfl
  · rw [shape, none]
    rfl

/-- **Faithfulness.** The shape of a value stands for the value. -/
@[simp]
theorem toJson_ofJson (value : Json) : (ofJson value).toJson = value := by
  cases value with
  | obj members => exact toJson_ofObject members
  | _ => rfl

end Operand

end FilterQuery
