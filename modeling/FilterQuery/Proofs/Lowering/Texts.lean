import FilterQuery.Proofs.Except
import FilterQuery.Proofs.Lowering.Renaming.Basic
import FilterQuery.Proofs.Run.Results

/-!
# Texts under an identifier field

Operands have texts: strings, and the strings of lists, in the order of the lists (`operandTexts`).
Under a field that holds identifiers each text is decoded on its own, and what it becomes does not
depend on the others or on the policy (`localText`). The strict policy refuses a text that cannot be
decoded (`accept`), and that is all the texts have to do with whether there is a result
(`result_localConditions`).
-/

namespace FilterQuery

namespace Lowering

/-- The text that a value is, if it is one. -/
def itemTexts : Json → List String
  | .str encoded => [encoded]
  | _ => []

/-- The texts of an operand. The elements of a list count, and what is deeper in them does not. -/
def operandTexts : Json → List String
  | .arr items => items.flatMap itemTexts
  | operand => itemTexts operand

/-- **Texts.** The texts of all operands, in the order of the keys. -/
def texts (operands : Object) : List String :=
  operands.toList.flatMap fun entry => operandTexts entry.2

/-- **Acceptance.** The strict policy refuses a text that cannot be decoded. -/
def accept (codec : Codec) (policy : IdentifierPolicy) (encoded : String) :
    Except LoweringError Unit :=
  match codec.decode encoded with
  | .ok _ => .ok ()
  | .error cause => match policy with
    | .lenient => .ok ()
    | .strict => .error (.invalidIdentifier encoded cause)

section Texts

variable (codec : Codec) (policy : IdentifierPolicy) (cls : String)

theorem accept_lenient (encoded : String) : accept codec .lenient encoded = .ok () := by
  unfold accept
  cases codec.decode encoded <;> rfl

theorem exists_accept_strict_iff {encoded : String} :
    (∃ accepted, accept codec .strict encoded = .ok accepted) ↔
      ∃ identifier, codec.decode encoded = .ok identifier := by
  rcases h : codec.decode encoded with cause | identifier
  · simp [accept, h]
  · simp [accept, h]

theorem accept_strict_eq_error_iff {encoded : String} {error : LoweringError} :
    accept codec .strict encoded = .error error ↔
      ∃ cause, codec.decode encoded = .error cause ∧ error = .invalidIdentifier encoded cause := by
  rcases h : codec.decode encoded with cause | identifier
  · simp [accept, h, eq_comm]
  · simp [accept, h]

/-- A text that is accepted is replaced by its local text. -/
theorem result_localId (encoded : String) :
    (localId codec policy cls encoded).result =
      (fun _ => localText codec cls encoded) <$> accept codec policy encoded := by
  unfold localId localText accept
  rcases codec.decode encoded with cause | identifier
  · cases policy <;> rfl
  · dsimp only
    cases identifier.localId? cls <;> rfl

theorem result_str_localId (encoded : String) :
    (Json.str <$> localId codec policy cls encoded).result =
      (fun _ => .str (localText codec cls encoded)) <$> [encoded].mapM (accept codec policy) := by
  rw [Run.result_map, result_localId, Except.mapM_singleton]
  cases accept codec policy encoded <;> rfl

/-- The texts of an operand are accepted one after the other. -/
theorem result_localOperand (operand : Json) :
    (localOperand codec policy cls operand).result =
      (fun _ => mapIds (localText codec cls) operand) <$>
        (operandTexts operand).mapM (accept codec policy) := by
  cases operand with
  | str encoded => exact result_str_localId codec policy cls encoded
  | arr items =>
    rw [localOperand, Run.result_map, Run.result_mapM, Except.mapM_eq_map_flatMap, Functor.map_map]
    · rfl
    · intro item _
      cases item with
      | str encoded => exact result_str_localId codec policy cls encoded
      | _ => rfl
  | _ => rfl

/-- The texts of all conditions are accepted one after the other. -/
theorem result_localConditions (operands : Object) :
    (localConditions codec policy cls operands.toList).result =
      (fun _ => operands.toList.map fun entry =>
        (entry.1, mapIds (localText codec cls) entry.2)) <$>
          (texts operands).mapM (accept codec policy) := by
  rw [localConditions, Run.result_mapM, texts]
  refine Except.mapM_eq_map_flatMap fun entry _ => ?_
  rw [← map_eq_pure_bind, Run.result_map, result_localOperand, Functor.map_map]

end Texts

/-- Conditions on identifiers have local texts, if all their texts are accepted. -/
theorem result_conditions_of_id {cls field : String} (isId : isIdField cls field = true)
    (cx : Context) (operands : Object) :
    (conditions cx cls field operands).result =
      (fun _ => operands.toList.map fun entry =>
        (entry.1, mapIds (localText cx.codec cls) entry.2)) <$>
          (texts operands).mapM (accept cx.codec cx.policy) := by
  rw [conditions, if_pos isId, Run.result_bind, Run.result_emit, Except.ok_bind]
  exact result_localConditions cx.codec cx.policy cls operands

/-- The conditions of a field keep their names, and identifiers become local ids. -/
theorem yields_conditions (cx : Context) (cls field : String) (operands : Object) :
    (conditions cx cls field operands).Yields (operands.toList.map fun entry =>
      (entry.1, mapIdsUnder (localText cx.codec cls) cls field entry.2)) := by
  unfold conditions mapIdsUnder
  split
  · refine (Run.yields_emit (.idMoved cls)).bind fun entries h => ?_
    rw [result_localConditions] at h
    obtain ⟨_, -, rfl⟩ := Except.map_eq_ok_iff.mp h
    rfl
  · rw [List.map_id']
    exact Run.yields_pure _

/-- The conditions of a field stay in the order of their names. -/
theorem pairwise_of_result_conditions {cx : Context} {cls field : String} {operands : Object}
    {entries : List (String × Json)}
    (h : (conditions cx cls field operands).result = .ok entries) :
    entries.Pairwise fun a b => a.1 < b.1 := by
  rw [yields_conditions cx cls field operands entries h, List.pairwise_map]
  exact Dict.pairwise_toList operands

end Lowering

end FilterQuery
