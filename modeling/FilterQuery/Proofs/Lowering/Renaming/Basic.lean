import FilterQuery.Proofs.Lowering.Edits
import FilterQuery.Proofs.Lowering.Places

/-!
# Renamed filters

A filter with its keys renamed is given outright, by recursion on the filter (`rename`): each key is
sent to its target (`Place.target`), and a function is applied to the identifiers. An entry is
renamed by one edit (`entryEdit`, `conditionEdit`), which writes the renamed value under the target.

Renaming says all that lowering does only where it keeps keys apart and nothing is moved or encoded:
such filters are `Renameable`.
-/

namespace FilterQuery

namespace Lowering

/-! ### Identifiers -/

/-- An operand under `id` with a function applied to the identifiers. -/
def mapIds (ids : String → String) : Json → Json
  | .str encoded => .str (ids encoded)
  | .arr items => .arr (items.map fun
    | .str encoded => .str (ids encoded)
    | item => item)
  | value => value

/-- An operand with a function applied to the identifiers, if the field holds identifiers. -/
def mapIdsUnder (ids : String → String) (cls field : String) (operand : Json) : Json :=
  if isIdField cls field then mapIds ids operand else operand

/-- Replacing identifiers leaves objects as they are. -/
theorem mapIdsUnder_obj (ids : String → String) (cls field : String) (nested : Object) :
    mapIdsUnder ids cls field (.obj nested) = .obj nested := by
  unfold mapIdsUnder mapIds
  exact ite_self _

/-- Replacing identifiers keeps pairs: only objects are pairs. -/
theorem pair?_ofJson_mapIdsUnder (ids : String → String) (cls field : String) (operand : Json) :
    (Operand.ofJson (mapIdsUnder ids cls field operand)).pair? =
      (Operand.ofJson operand).pair? := by
  unfold mapIdsUnder
  split
  · cases operand <;> rfl
  · rfl

/-- The local id of an identifier of the class; any other text stays. -/
def localText (codec : Codec) (cls encoded : String) : String :=
  match codec.decode encoded with
  | .ok identifier => (identifier.localId? cls).getD encoded
  | .error _ => encoded

/-! ### Renamed filters -/

mutual

/-- **Renaming.** A filter with its keys renamed, and a function applied to the identifiers. -/
def rename (ids : String → String) (cls : String) : Json → Json
  | .obj filter => .obj (.ofList (renameEntries ids cls filter))
  | value => value

/-- The filters of a combinator. -/
def renameBranches (ids : String → String) (cls : String) : List Json → List Json
  | [] => []
  | branch :: branches => rename ids cls branch :: renameBranches ids cls branches

/-- The entries of a filter. -/
def renameEntries (ids : String → String) (cls : String) {bound : Option String} :
    Dict Json bound → List (String × Json)
  | .nil => []
  | .cons key _ value rest =>
    (Place.filter.target cls key value, renameEntry ids cls key value) ::
      renameEntries ids cls rest

/-- The value of an entry of a filter. -/
def renameEntry (ids : String → String) (cls key : String) (value : Json) : Json :=
  match Combinator.ofName? key, value with
  | some _, .arr items => .arr (renameBranches ids cls items)
  | none, .obj operands => .obj (.ofList (renameConditions ids cls key operands))
  | _, value => value

/-- The conditions of a field. -/
def renameConditions (ids : String → String) (cls field : String) {bound : Option String} :
    Dict Json bound → List (String × Json)
  | .nil => []
  | .cons name _ operand rest =>
    ((Place.conditions field).target cls name operand, renameOperand ids cls field name operand) ::
      renameConditions ids cls field rest

/-- The operand of a condition. -/
def renameOperand (ids : String → String) (cls field name : String) : Json → Json
  | .obj nested =>
    if name = whereKey then .obj (.ofList (renameEntries ids cls nested))
    else .obj (.ofList (renameConditions ids cls name nested))
  | operand => mapIdsUnder ids cls field operand

end

section Entries

variable (ids : String → String) (cls : String)

theorem renameBranches_eq (branches : List Json) :
    renameBranches ids cls branches = branches.map (rename ids cls) := by
  induction branches with
  | nil => rw [renameBranches, List.map_nil]
  | cons branch branches ih => rw [renameBranches, List.map_cons, ih]

theorem renameEntries_eq {bound : Option String} (filter : Dict Json bound) :
    renameEntries ids cls filter = filter.toList.map fun entry =>
      (Place.filter.target cls entry.1 entry.2, renameEntry ids cls entry.1 entry.2) := by
  induction filter with
  | nil => rw [renameEntries, Dict.toList, List.map_nil]
  | cons key follows value rest ih => rw [renameEntries, Dict.toList, List.map_cons, ih]

theorem renameConditions_eq (field : String) {bound : Option String}
    (operands : Dict Json bound) :
    renameConditions ids cls field operands = operands.toList.map fun entry =>
      ((Place.conditions field).target cls entry.1 entry.2,
        renameOperand ids cls field entry.1 entry.2) := by
  induction operands with
  | nil => rw [renameConditions, Dict.toList, List.map_nil]
  | cons name follows operand rest ih => rw [renameConditions, Dict.toList, List.map_cons, ih]

end Entries

/-! ### Renameable filters -/

/-- **Renameable filters.** Of all the objects of a filter, none has two keys that are sent to the
same key, and none that holds conditions has a pair or a geographic operator. -/
structure Renameable (cls : String) (input : Json) : Prop where
  /-- The keys of every object stay apart. -/
  apart : ∀ place members, Visited input place members → place.Apart cls members
  /-- No operand is a pair. -/
  unpaired : ∀ field operands, Visited input (.conditions field) operands → Unpaired operands
  /-- No operand is encoded. -/
  geoFree : ∀ field operands, Visited input (.conditions field) operands → GeoFree operands

/-! ### Edits that rename -/

section Edits

variable (ids : String → String) (cls : String)

/-- The edit that an entry of a filter becomes. -/
def entryEdit (key : String) (value : Json) : Edit :=
  match Combinator.ofName? key, value with
  | none, .obj operands =>
    .merge (outputKey cls key key) (.ofList (renameConditions ids cls key operands))
  | _, value => .set (Place.filter.target cls key value) (renameEntry ids cls key value)

theorem key_entryEdit (key : String) (value : Json) :
    (entryEdit ids cls key value).key = Place.filter.target cls key value := by
  unfold entryEdit
  split
  · next h =>
    rw [Edit.key, Place.target_filter_of_none h]
  · rfl

theorem written_entryEdit (key : String) (value : Json) :
    (entryEdit ids cls key value).written = renameEntry ids cls key value := by
  unfold entryEdit
  split
  · next operands h =>
    rw [Edit.written, renameEntry]
    exact h
  · rfl

/-- The edit that a condition of a field becomes. -/
def conditionEdit (field name : String) (operand : Json) : Edit :=
  match operand with
  | .obj nested =>
    if name = whereKey then .set (targetKey name) (.obj (.ofList (renameEntries ids cls nested)))
    else .merge (outputKey cls name (targetKey name))
      (.ofList (renameConditions ids cls name nested))
  | operand => .set (targetKey name) (mapIdsUnder ids cls field operand)

theorem key_conditionEdit (field name : String) (operand : Json) :
    (conditionEdit ids cls field name operand).key =
      (Place.conditions field).target cls name operand := by
  cases operand with
  | obj nested =>
    rw [conditionEdit, Place.target]
    split
    · next h =>
      subst h
      rfl
    · rfl
  | _ => rfl

theorem written_conditionEdit (field name : String) (operand : Json) :
    (conditionEdit ids cls field name operand).written =
      renameOperand ids cls field name operand := by
  cases operand with
  | obj nested =>
    rw [conditionEdit, renameOperand]
    split
    · rfl
    · rfl
  | _ => rfl

end Edits

section Parts

variable {α : Type} (edit : α → Edit) (conditions : List α)

/-- Conditions that give one edit each give these edits. -/
theorem Part.flatMap_ownEdits_own :
    (conditions.map fun condition => Part.own [edit condition]).flatMap Part.ownEdits =
      conditions.map edit := by
  rw [List.flatMap_map]
  exact List.map_eq_flatMap.symm

/-- They give no dotted paths. -/
theorem Part.flatMap_dottedEdits_own :
    (conditions.map fun condition => Part.own [edit condition]).flatMap Part.dottedEdits = [] :=
  List.flatMap_eq_nil_iff.mpr (List.forall_mem_map.mpr fun _ _ => rfl)

end Parts

end Lowering

end FilterQuery
