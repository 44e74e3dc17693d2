import FilterQuery.Proofs.Lowering.Steps
import FilterQuery.Proofs.Lowering.Texts

/-!
# Pairs

A pair among the conditions of a field is a condition on a path inside the field. It gives one edit,
which merges the value of the pair into the object under the dotted path (`mem_pathEdits`). A field
with pairs gives these edits and leaves nothing else, whatever its other conditions are, and a field
without pairs gives one edit with the object of its conditions (`edits_of_fieldStep`).
-/

namespace FilterQuery

namespace Lowering

variable {cx : Context} {below : Below} {cls field key : String} {operands : Object}

/-- The pair that an object with a path and a value writes. -/
theorem exists_pair_of_members {members : Object} {path : String} {value : Json}
    (key : members.get? "key" = some (.str path)) (nonempty : path ≠ "")
    (holds : members.get? "value" = some value) (notNull : value ≠ .null) :
    ∃ pair, (Operand.ofJson (.obj members)).pair? = some pair ∧ pair.path = path ∧
      pair.value = value := by
  have writes := PathPair.ofObject?_of_written ⟨key, nonempty, holds, notNull⟩
  exact ⟨_, (Operand.pair?_ofObject members).trans writes, rfl, rfl⟩

/-! ### Edits of pairs -/

/-- The edits that an operand gives as a pair: the value goes to the dotted path. -/
def pairEdits (field : String) (entry : String × Json) : List Edit :=
  match pairUnder? field (.ofJson entry.2) with
  | some pair => [.merge (field ++ "." ++ pair.path) (.singleton (targetKey entry.1) pair.value)]
  | none => []

theorem mem_pairEdits {entry : String × Json} {edit : Edit} :
    edit ∈ pairEdits field entry ↔ ∃ pair, pairUnder? field (.ofJson entry.2) = some pair ∧
      edit = .merge (field ++ "." ++ pair.path) (.singleton (targetKey entry.1) pair.value) := by
  rw [pairEdits]
  split
  · next pair is => simp [is]
  · next none => simp [none]

/-- The edits that the conditions of a field give as pairs. -/
def pathEdits (field : String) (operands : Object) : List Edit :=
  operands.toList.flatMap (pairEdits field)

theorem mem_pathEdits {edit : Edit} :
    edit ∈ pathEdits field operands ↔ ∃ name operand pair, operands.get? name = some operand ∧
      pairUnder? field (.ofJson operand) = some pair ∧
        edit = .merge (field ++ "." ++ pair.path) (.singleton (targetKey name) pair.value) := by
  simp only [pathEdits, List.mem_flatMap, mem_pairEdits, Prod.exists, Dict.mem_toList]
  exact exists_congr fun name => exists_congr fun operand => exists_and_left.symm

/-- There are no edits exactly if the field has no dotted paths or no pairs. -/
theorem pathEdits_eq_nil_iff : pathEdits field operands = [] ↔ field = "" ∨ Unpaired operands := by
  rw [pathEdits, List.flatMap_eq_nil_iff]
  constructor
  · intro nothing
    refine or_iff_not_imp_left.mpr fun named name operand found => ?_
    have none := nothing (name, operand) (Dict.mem_toList.mpr found)
    rw [pairEdits, pairUnder?_of_ne named] at none
    split at none
    · cases none
    · next is => exact is
  · rintro noPairs ⟨name, operand⟩ mem
    have is : pairUnder? field (.ofJson operand) = none := by
      obtain rfl | unpaired := noPairs
      · exact if_pos rfl
      · exact pairUnder?_eq_none (unpaired name operand (Dict.mem_toList.mp mem)) field
    rw [pairEdits, is]

/-- Without edits there is no pair. -/
theorem unpaired_of_pathEdits (named : field ≠ "") (none : pathEdits field operands = []) :
    Unpaired operands :=
  (pathEdits_eq_nil_iff.mp none).resolve_left named

/-! ### Fields with pairs -/

/-- The dotted paths of a condition are those of its operand as a pair. -/
theorem dottedEdits_of_part {name : String} {operand : Json} {found : Part}
    (h : (part cx below cls field name operand).result = .ok found) :
    found.dottedEdits = pairEdits field (name, operand) := by
  rw [pairEdits]
  obtain ⟨pair, is, rfl⟩ | ⟨none, ⟨reference, -, given⟩ | ⟨-, given⟩⟩ := part_cases h
  · rw [is]
    rfl
  · rw [none]
    exact dottedEdits_of_referencePart given
  · rw [none]
    exact dottedEdits_of_plainPart given

/-- Lists of the same length whose elements give the same in pairs give the same altogether. -/
private theorem flatMap_eq_of_forall₂ {α β γ : Type} {f : α → List γ} {g : β → List γ}
    {xs : List α} {ys : List β} (h : List.Forall₂ (fun x y => f x = g y) xs ys) :
    xs.flatMap f = ys.flatMap g := by
  induction h with
  | nil => rfl
  | cons head tail ih => rw [List.flatMap_cons, List.flatMap_cons, head, ih]

/-- Replacing identifiers keeps the edits of pairs. -/
theorem pathEdits_of_result_conditions {entries : List (String × Json)}
    (h : (conditions cx cls field operands).result = .ok entries) :
    pathEdits field operands = entries.flatMap (pairEdits field) := by
  rw [yields_conditions cx cls field operands entries h, List.flatMap_map, pathEdits]
  refine List.flatMap_congr fun entry _ => ?_
  rw [pairEdits, pairEdits, pairUnder?, pairUnder?, pair?_ofJson_mapIdsUnder]

/-- **Edits of fields.** A field with pairs is lowered to the edits that they give, and to nothing
else. A field without pairs becomes the object that is put together from its parts. -/
theorem edits_of_fieldStep {edits : List Edit}
    (h : (fieldStep cx below cls field key operands).result = .ok edits) :
    pathEdits field operands ≠ [] ∧ edits = pathEdits field operands ∨
      pathEdits field operands = [] ∧ ∃ entries parts lowered,
        (conditions cx cls field operands).result = .ok entries ∧
        (entries.mapM fun entry => (part cx below cls field entry.1 entry.2).result) = .ok parts ∧
        (assemble cx cls field parts).result = .ok lowered ∧
          edits = [.merge (outputKey cls field key) lowered] := by
  rw [result_fieldStep] at h
  obtain ⟨entries, hentries, h⟩ := Except.bind_eq_ok_iff.mp h
  obtain ⟨parts, hparts, h⟩ := Except.bind_eq_ok_iff.mp h
  obtain ⟨lowered, hlowered, ⟨⟩⟩ := Except.bind_eq_ok_iff.mp h
  have each := (Except.mapM_eq_ok_iff.mp hparts).imp fun entry found (given : _ = _) =>
    (dottedEdits_of_part given).symm
  rw [fieldEdits, ← flatMap_eq_of_forall₂ each, ← pathEdits_of_result_conditions hentries]
  split
  · next none => exact .inr ⟨none, entries, parts, lowered, hentries, hparts, hlowered, rfl⟩
  · next some => exact .inl ⟨some, rfl⟩

end Lowering

end FilterQuery
