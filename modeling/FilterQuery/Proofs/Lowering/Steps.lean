import FilterQuery.Lowering.Basic
import FilterQuery.Proofs.Except
import FilterQuery.Proofs.Run.Results

/-!
# Results of the steps

One equation per step of lowering, for its result alone: which steps it consists of, and what it
makes of their results. Events have no part in it. A condition that succeeds is told by cases: it
is a pair, or one of a reference, or that of a plain field (`part_cases`, `PlainPart`).

A field is lowered in two stages: its conditions give parts, and the parts are put together to
edits (`fieldEdits`). These change the key of the field or dotted paths below the field, and nothing
else (`key_of_fieldAt`), so an entry of a filter has a footprint that its key determines
(`key_of_entryStep`).
-/

namespace FilterQuery

namespace Lowering

variable {cx : Context} {below : Below} {cls field key : String}

/-! ### Filters -/

/-- Lowering an object is lowering it as a filter. -/
theorem result_lower_obj (cx : Context) (cls : String) (filter : Object) :
    (lower cx cls (.obj filter)).result =
      Json.obj <$> (filterAt cx cx.limit cls filter).result :=
  Run.result_map (filterAt cx cx.limit cls filter) Json.obj

/-- What is no object is kept. -/
theorem result_lower_of_ne_obj {input : Json} (noObject : ∀ filter, input ≠ .obj filter)
    (cx : Context) (cls : String) : (lower cx cls input).result = .ok input := by
  cases input with
  | obj filter => exact absurd rfl (noObject filter)
  | _ => rfl

theorem result_branches_arr (below : Below) (cls : String) (combinator : Combinator)
    (items : List Json) :
    (branches below cls combinator (.arr items)).result =
      Json.arr <$> items.mapM fun item => (below.value cls item).result := by
  rw [branches, Run.result_map, Run.result_mapM]

/-- The operand of a combinator that is no list is kept. -/
theorem result_branches_of_ne_arr {operand : Json} (notList : ∀ items, operand ≠ .arr items)
    (below : Below) (cls : String) (combinator : Combinator) :
    (branches below cls combinator operand).result = .ok operand := by
  cases operand with
  | arr items => exact absurd rfl (notList items)
  | _ => rfl

/-- An entry of a combinator puts what its operand becomes under the target. -/
theorem result_entryStep_of_some {combinator : Combinator}
    (name : Combinator.ofName? key = some combinator) (below : Below) (cls : String)
    (value : Json) :
    (entryStep below cls key value).result =
      ([Edit.set combinator.target ·]) <$> (branches below cls combinator value).result := by
  unfold entryStep
  rw [name]
  exact Run.result_map (branches below cls combinator value) ([Edit.set combinator.target ·])

/-- An entry with an object is lowered as the conditions of a field. -/
theorem entryStep_obj (noName : Combinator.ofName? key = none) (below : Below) (cls : String)
    (operands : Object) :
    entryStep below cls key (.obj operands) = below.field cls key key operands := by
  unfold entryStep
  rw [noName]

/-- Any other entry is put under the key of its field. -/
theorem entryStep_literal (noName : Combinator.ofName? key = none) {literal : Json}
    (noObject : literal.isObject = false) (below : Below) (cls : String) :
    entryStep below cls key literal = pure [.set (outputKey cls key key) literal] := by
  unfold entryStep
  rw [noName]
  cases literal with
  | obj operands => cases noObject
  | _ => rfl

/-- The entries of a filter are lowered one by one, and all their edits build the query. -/
theorem result_filterStep (below : Below) (cls : String) (filter : Object) :
    (filterStep below cls filter).result =
      (fun edits : List (List Edit) => Edit.build edits.flatten) <$>
        filter.toList.mapM fun entry => (entryStep below cls entry.1 entry.2).result := by
  rw [filterStep, ← Run.result_mapM]
  exact Run.result_map _ fun edits : List (List Edit) => Edit.build edits.flatten

/-- The edits of an entry; none if lowering it fails. -/
def entryEdits (below : Below) (cls : String) (entry : String × Json) : List Edit :=
  match (entryStep below cls entry.1 entry.2).result with
  | .ok edits => edits
  | .error _ => []

theorem entryEdits_of_ok {entry : String × Json} {edits : List Edit}
    (h : (entryStep below cls entry.1 entry.2).result = .ok edits) :
    entryEdits below cls entry = edits := by
  rw [entryEdits, h]

/-- Only an entry that is lowered with success has edits. -/
theorem result_entryStep_of_mem {entry : String × Json} {edit : Edit}
    (mem : edit ∈ entryEdits below cls entry) :
    (entryStep below cls entry.1 entry.2).result = .ok (entryEdits below cls entry) := by
  rcases h : (entryStep below cls entry.1 entry.2).result with e | edits
  · rw [entryEdits, h] at mem
    cases mem
  · rw [entryEdits_of_ok h]

/-- **Success.** A filter has a query exactly if each of its entries is lowered with success. The
edits of the entries, in the order of the keys, build the query. -/
theorem result_filterStep_eq_ok_iff {filter query : Object} :
    (filterStep below cls filter).result = .ok query ↔
      (∀ entry ∈ filter.toList, ∃ edits, (entryStep below cls entry.1 entry.2).result = .ok edits) ∧
        query = Edit.build (filter.toList.flatMap (entryEdits below cls)) := by
  have build (succeed : ∀ entry ∈ filter.toList, ∃ edits,
      (entryStep below cls entry.1 entry.2).result = .ok edits) :
      (filterStep below cls filter).result =
        .ok (Edit.build (filter.toList.flatMap (entryEdits below cls))) := by
    have each : ∀ entry ∈ filter.toList,
        (entryStep below cls entry.1 entry.2).result = .ok (entryEdits below cls entry) := by
      intro entry mem
      obtain ⟨edits, h⟩ := succeed entry mem
      rw [entryEdits_of_ok h, h]
    rw [result_filterStep, Except.mapM_eq_ok_map each, Except.map_ok, List.flatMap_def]
  constructor
  · intro h
    obtain ⟨edits, hedits, -⟩ := Except.map_eq_ok_iff.mp (result_filterStep .. ▸ h)
    have succeed := Except.exists_of_mapM_eq_ok hedits
    exact ⟨succeed, Except.ok.inj (h.symm.trans (build succeed))⟩
  · rintro ⟨succeed, rfl⟩
    exact build succeed

/-- **Failure.** The error of a filter is that of its first entry that is not lowered with
success. -/
theorem result_filterStep_eq_error_iff {filter : Object} {error : LoweringError} :
    (filterStep below cls filter).result = .error error ↔
      ∃ before entry after, filter.toList = before ++ entry :: after ∧
        (∀ other ∈ before, ∃ edits, (entryStep below cls other.1 other.2).result = .ok edits) ∧
        (entryStep below cls entry.1 entry.2).result = .error error := by
  rw [result_filterStep, Except.map_eq_error_iff, Except.mapM_eq_error_iff]

/-- A filter with one entry is lowered as the entry is. -/
theorem result_filterStep_singleton (below : Below) (cls key : String) (value : Json) :
    (filterStep below cls (.singleton key value)).result =
      Edit.build <$> (entryStep below cls key value).result := by
  have entries : (Dict.singleton key value).toList = [(key, value)] := rfl
  rw [result_filterStep, entries, Except.mapM_singleton]
  rcases (entryStep below cls key value).result with e | edits
  · rfl
  · exact congrArg (Except.ok ∘ Edit.build) (List.append_nil edits)

/-! ### Fields -/

theorem isIdField_iff : isIdField cls field = true ↔ field = idField ∧ cls ≠ "" := by
  rw [isIdField, Bool.and_eq_true, beq_iff_eq, bne_iff_ne]

theorem isIdField_of_ne (ne : field ≠ idField) (cls : String) : isIdField cls field = false := by
  rw [isIdField, beq_false_of_ne ne, Bool.false_and]

theorem outputKey_of_id (isId : field = idField) (hasClass : cls ≠ "") (key : String) :
    outputKey cls field key = objectIdKey :=
  if_pos (isIdField_iff.mpr ⟨isId, hasClass⟩)

theorem outputKey_of_not_id (notId : isIdField cls field = false) (key : String) :
    outputKey cls field key = key := by
  rw [outputKey, notId]
  rfl

/-- Conditions that are not on identifiers are taken as they are. -/
theorem result_conditions_of_not_id (notId : isIdField cls field = false) (cx : Context)
    (operands : Object) : (conditions cx cls field operands).result = .ok operands.toList := by
  rw [conditions, notId]
  rfl

/-- What is no pair is none under any field. -/
theorem pairUnder?_eq_none {operand : Operand} (unpaired : operand.pair? = none) (field : String) :
    pairUnder? field operand = none := by
  rw [pairUnder?, unpaired, ite_self]

/-- Every field that has a name has dotted paths. -/
theorem pairUnder?_of_ne (named : field ≠ "") (operand : Operand) :
    pairUnder? field operand = operand.pair? := if_neg named

/-- The edits that the parts of a field give, once they are put together: those of dotted paths if
there are any, and otherwise one that merges the object of the field. -/
def fieldEdits (key : String) (parts : List Part) (lowered : Object) : List Edit :=
  match parts.flatMap Part.dottedEdits with
  | [] => [.merge key lowered]
  | dotted => dotted

/-- The conditions of a field are lowered one by one, and their parts are put together. -/
theorem result_fieldStep (cx : Context) (below : Below) (cls field key : String)
    (operands : Object) :
    (fieldStep cx below cls field key operands).result = (do
      let entries ← (conditions cx cls field operands).result
      let parts ← entries.mapM fun entry => (part cx below cls field entry.1 entry.2).result
      let lowered ← (assemble cx cls field parts).result
      return fieldEdits (outputKey cls field key) parts lowered) := by
  rw [fieldStep, Run.result_bind, Run.result_emit, Except.ok_bind, Run.result_bind]
  refine congrArg _ (funext fun entries => ?_)
  rw [Run.result_bind, Run.result_mapM]
  refine congrArg _ (funext fun parts => ?_)
  rw [Run.result_bind]
  refine congrArg _ (funext fun lowered => ?_)
  unfold fieldEdits
  cases parts.flatMap Part.dottedEdits <;> rfl

/-! ### Conditions -/

section Conditions

variable {name : String} {operand : Json} {found : Part}

/-- A condition that is no pair is one of the reference that the field is, if it is one. -/
theorem part_of_reference {reference : Field}
    (noPair : pairUnder? field (.ofJson operand) = none)
    (refers : cx.schema.reference? cls field = some reference) :
    part cx below cls field name operand = referencePart below field reference name operand := by
  rw [part, noPair, refers]

theorem part_of_plain (noPair : pairUnder? field (.ofJson operand) = none)
    (plain : cx.schema.reference? cls field = none) :
    part cx below cls field name operand = plainPart below cls name (.ofJson operand) := by
  rw [part, noPair, plain]

/-- **Conditions.** A pair goes to its dotted path. Any other condition is one of a reference, or
that of a plain field. -/
theorem part_cases (h : (part cx below cls field name operand).result = .ok found) :
    (∃ pair, pairUnder? field (.ofJson operand) = some pair ∧
        found = .dotted (field ++ "." ++ pair.path) (targetKey name) pair.value) ∨
      pairUnder? field (.ofJson operand) = none ∧
        ((∃ reference, cx.schema.reference? cls field = some reference ∧
            (referencePart below field reference name operand).result = .ok found) ∨
          cx.schema.reference? cls field = none ∧
            (plainPart below cls name (.ofJson operand)).result = .ok found) := by
  unfold part at h
  split at h
  · next pair is =>
    obtain ⟨-, -, ⟨⟩⟩ := Run.exists_of_bind h
    exact .inl ⟨pair, is, rfl⟩
  · next none =>
    refine .inr ⟨none, ?_⟩
    split at h
    · next reference known => exact .inl ⟨reference, known, h⟩
    · next plain => exact .inr ⟨plain, h⟩

end Conditions

/-- **Plain conditions.** What a condition of a plain field gives, by what its operand is encoded
as. -/
inductive PlainPart (below : Below) (cls name : String) (operand : Operand) : Part → Prop
  /-- A filter is put under the key of the condition as its query. -/
  | filter {nested query : Object}
    (encoded : Geo.encode (Operator.ofName? name) operand = .obj nested) (isWhere : name = whereKey)
    (given : (below.filter cls nested).result = .ok query) :
    PlainPart below cls name operand (.own [.set (targetKey name) (.obj query)])
  /-- Conditions in turn are lowered as those of a field. -/
  | conditions {nested : Object} {edits : List Edit}
    (encoded : Geo.encode (Operator.ofName? name) operand = .obj nested) (ne : name ≠ whereKey)
    (given : (below.field cls name (targetKey name) nested).result = .ok edits) :
    PlainPart below cls name operand (.own edits)
  /-- What is no object is put under the key of the condition. -/
  | literal (noObject : (Geo.encode (Operator.ofName? name) operand).isObject = false) :
    PlainPart below cls name operand
      (.own [.set (targetKey name) (Geo.encode (Operator.ofName? name) operand)])

theorem plainPart_of_result {name : String} {operand : Operand} {found : Part}
    (h : (plainPart below cls name operand).result = .ok found) :
    PlainPart below cls name operand found := by
  unfold plainPart at h
  dsimp only at h
  split at h
  · next nested encoded =>
    split at h
    · next isWhere =>
      obtain ⟨query, given, ⟨⟩⟩ := Run.exists_of_bind h
      exact .filter encoded isWhere given
    · next ne =>
      obtain ⟨edits, given, ⟨⟩⟩ := Run.exists_of_bind h
      exact .conditions encoded ne given
  · next noObject =>
    cases h
    refine .literal (Bool.eq_false_iff.mpr fun object => ?_)
    obtain ⟨nested, encoded⟩ := Json.exists_of_isObject object
    exact noObject nested encoded

/-! ### Written keys -/

/-- A key without a dot is no dotted path. -/
theorem ne_dotted {key : String} (none : '.' ∉ key.toList) (field path : String) :
    key ≠ field ++ "." ++ path := by
  rintro rfl
  simp at none

/-- A condition of a reference has no dotted path. -/
theorem dottedEdits_of_referencePart {reference : Field} {name : String} {operand : Json}
    {found : Part} (h : (referencePart below field reference name operand).result = .ok found) :
    found.dottedEdits = [] := by
  unfold referencePart at h
  split at h
  · cases h
    rfl
  · obtain ⟨value, -, ⟨⟩⟩ := Run.exists_of_bind h
    rfl
  · obtain ⟨value, -, ⟨⟩⟩ := Run.exists_of_bind h
    rfl
  · cases h
    rfl
  · split at h
    · obtain ⟨value, -, ⟨⟩⟩ := Run.exists_of_bind h
      rfl
    · obtain ⟨value, -, ⟨⟩⟩ := Run.exists_of_bind h
      rfl

/-- A condition of a plain field has no dotted path. -/
theorem dottedEdits_of_plainPart {name : String} {operand : Operand} {found : Part}
    (h : (plainPart below cls name operand).result = .ok found) : found.dottedEdits = [] := by
  cases plainPart_of_result h <;> rfl

/-- The dotted paths of a condition are below the field. -/
theorem key_of_mem_dottedEdits {name : String} {operand : Json} {found : Part}
    (h : (part cx below cls field name operand).result = .ok found) :
    ∀ edit ∈ found.dottedEdits, ∃ path, edit.key = field ++ "." ++ path := by
  intro edit mem
  obtain ⟨pair, -, rfl⟩ | ⟨-, ⟨reference, -, given⟩ | ⟨-, given⟩⟩ := part_cases h
  · rw [List.mem_singleton.mp mem]
    exact ⟨pair.path, rfl⟩
  · rw [dottedEdits_of_referencePart given] at mem
    cases mem
  · rw [dottedEdits_of_plainPart given] at mem
    cases mem

/-- A field changes the key that it is sent to, or dotted paths below it. -/
theorem key_of_fieldStep {operands : Object} {edits : List Edit}
    (h : (fieldStep cx below cls field key operands).result = .ok edits) :
    ∀ edit ∈ edits,
      edit.key = outputKey cls field key ∨ ∃ path, edit.key = field ++ "." ++ path := by
  rw [result_fieldStep] at h
  obtain ⟨entries, -, h⟩ := Except.bind_eq_ok_iff.mp h
  obtain ⟨parts, hparts, h⟩ := Except.bind_eq_ok_iff.mp h
  obtain ⟨lowered, -, ⟨⟩⟩ := Except.bind_eq_ok_iff.mp h
  intro edit mem
  unfold fieldEdits at mem
  split at mem
  · rw [List.mem_singleton.mp mem]
    exact .inl rfl
  · right
    obtain ⟨found, hfound, hedit⟩ := List.mem_flatMap.mp mem
    rw [← Run.result_mapM] at hparts
    obtain ⟨entry, -, hentry⟩ := Run.exists_of_mem_mapM hparts found hfound
    exact key_of_mem_dottedEdits hentry edit hedit

/-- **Footprints of fields.** Whatever levels are left, lowering a field changes the key that it is
sent to, or dotted paths below the field. -/
theorem key_of_fieldAt {levels : Nat} {operands : Object} {edits : List Edit}
    (h : (fieldAt cx levels cls field key operands).result = .ok edits) :
    ∀ edit ∈ edits,
      edit.key = outputKey cls field key ∨ ∃ path, edit.key = field ++ "." ++ path := by
  cases levels with
  | zero => cases h
  | succ levels => exact key_of_fieldStep h

/-- **Footprints of entries.** An entry of a filter changes the target of its combinator, or what
its field changes. -/
theorem key_of_entryStep {levels : Nat} {value : Json} {edits : List Edit}
    (h : (entryStep (belowAt cx levels) cls key value).result = .ok edits) :
    ∀ edit ∈ edits,
      (∃ combinator, Combinator.ofName? key = some combinator ∧ edit.key = combinator.target) ∨
        Combinator.ofName? key = none ∧
          (edit.key = outputKey cls key key ∨ ∃ path, edit.key = key ++ "." ++ path) := by
  intro edit mem
  rcases name : Combinator.ofName? key with _ | combinator
  · refine .inr ⟨rfl, ?_⟩
    cases value with
    | obj operands =>
      rw [entryStep_obj name] at h
      exact key_of_fieldAt h edit mem
    | _ =>
      rw [entryStep_literal name rfl] at h
      cases h
      rw [List.mem_singleton.mp mem]
      exact .inl rfl
  · refine .inl ⟨combinator, rfl, ?_⟩
    rw [result_entryStep_of_some name] at h
    rcases hbranches : (branches (belowAt cx levels) cls combinator value).result with e | lowered
    · rw [hbranches] at h
      cases h
    · rw [hbranches] at h
      cases h
      rw [List.mem_singleton.mp mem]
      rfl

end Lowering

end FilterQuery
