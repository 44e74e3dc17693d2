import FilterQuery.Geo
import FilterQuery.Lowering.Identifiers
import FilterQuery.Proofs.Operand

/-!
# Depth of filters

Lowering descends into members of objects and into elements of lists, after it has replaced
identifiers and stamped coordinates. None of this makes an object deeper: an object that is found
in an operand is one of its members or the same with a stamp (`Geo.members_of_encode`), and it is
less deep than the object around it (`Json.objectDepth_le_of_get?`).
-/

namespace FilterQuery

namespace Json

variable {bound : Option String}

/-! ### Depth of parts -/

/-- A list is as deep as the deepest of its elements. -/
theorem itemsDepth_le_iff {items : List Json} {n : Nat} :
    itemsDepth items ≤ n ↔ ∀ item ∈ items, item.objectDepth ≤ n := by
  induction items with
  | nil => simp [itemsDepth]
  | cons item items ih => rw [itemsDepth, Nat.max_le, ih, List.forall_mem_cons]

/-- An object is deeper by one than the deepest of its members. -/
theorem membersDepth_le_iff {members : Dict Json bound} {n : Nat} :
    membersDepth members ≤ n ↔ ∀ entry ∈ members.toList, entry.2.objectDepth ≤ n := by
  induction members with
  | nil => simp [membersDepth, Dict.toList]
  | cons key follows value rest ih =>
    rw [membersDepth, Nat.max_le, ih, Dict.toList, List.forall_mem_cons]

theorem objectDepth_le_of_mem {items : List Json} {item : Json} (mem : item ∈ items) :
    item.objectDepth ≤ (Json.arr items).objectDepth :=
  itemsDepth_le_iff.mp (Nat.le_refl _) item mem

theorem objectDepth_le_of_get? {members : Object} {key : String} {value : Json}
    (h : members.get? key = some value) : value.objectDepth ≤ membersDepth members :=
  membersDepth_le_iff.mp (Nat.le_refl _) (key, value) (Dict.mem_toList.mpr h)

/-- Inserting a member makes the members at most as deep as it. -/
theorem membersDepth_insert_le (members : Object) (key : String) (value : Json) :
    membersDepth (members.insert key value) ≤ max (membersDepth members) value.objectDepth := by
  refine membersDepth_le_iff.mpr ?_
  rintro ⟨k, v⟩ mem
  rw [Dict.mem_toList, Dict.get?_insert] at mem
  split at mem
  · cases mem
    exact Nat.le_max_right _ _
  · exact Nat.le_trans (objectDepth_le_of_get? mem) (Nat.le_max_left _ _)

end Json

namespace Geo

/-- A stamp adds no depth. -/
theorem membersDepth_stamp_le (point : Object) :
    Json.membersDepth (stamp point) ≤ Json.membersDepth point := by
  rw [stamp]
  split
  · exact Nat.le_refl _
  · exact Nat.le_trans (Json.membersDepth_insert_le ..)
      (Nat.max_le.mpr ⟨Nat.le_refl _, Nat.zero_le _⟩)

/-- An object that an operand is encoded as has the members of the operand, perhaps stamped. -/
theorem members_of_encode {operator : Option Operator} {operand : Operand} {nested : Object}
    (h : encode operator operand = .obj nested) :
    ∃ members, operand.toJson = .obj members ∧ (nested = members ∨ nested = stamp members) := by
  have stamped : ∀ value, stampValue value = .obj nested →
      ∃ members, value = .obj members ∧ (nested = members ∨ nested = stamp members) := by
    rintro value eq
    cases value with
    | obj members =>
      cases eq
      exact ⟨members, rfl, .inr rfl⟩
    | _ => cases eq
  -- The operators that take boxes, polygons and spheres give lists.
  unfold encode at h
  split at h
  · exact stamped _ h
  · exact stamped _ h
  · cases h
  · cases h
  · cases h
  · exact ⟨nested, h, .inl rfl⟩

/-- Encoding makes no object deeper. -/
theorem objectDepth_of_encode {operator : Option Operator} {value : Json} {nested : Object}
    (h : encode operator (.ofJson value) = .obj nested) :
    (Json.obj nested).objectDepth ≤ value.objectDepth := by
  obtain ⟨members, hvalue, hnested⟩ := members_of_encode h
  rw [Operand.toJson_ofJson] at hvalue
  subst hvalue
  rcases hnested with rfl | rfl
  · exact Nat.le_refl _
  · exact Nat.succ_le_succ (membersDepth_stamp_le members)

end Geo

namespace Lowering

/-- Replacing identifiers turns nothing into an object. -/
theorem obj_of_localOperand {codec : Codec} {policy : IdentifierPolicy} {cls : String}
    {operand : Json} {nested : Object}
    (h : (localOperand codec policy cls operand).result = .ok (.obj nested)) :
    operand = .obj nested := by
  cases operand with
  | str encoded =>
    rw [localOperand, Run.result_map] at h
    rcases hr : (localId codec policy cls encoded).result with e | a <;> rw [hr] at h <;> cases h
  | arr items =>
    rw [localOperand, Run.result_map] at h
    rcases hr : (items.mapM (localItem codec policy cls)).result with e | a <;> rw [hr] at h <;>
      cases h
  | obj members =>
    cases h
    rfl
  | _ => cases h

end Lowering

end FilterQuery
