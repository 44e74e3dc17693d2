import FilterQuery.Options
import FilterQuery.Proofs.Except

/-!
# Valid options

Options are checked where they are read and where they are overridden, so options that come from
there grant at least one level.
-/

namespace FilterQuery.Options

/-- The check passes options on that grant at least one level. -/
theorem validate_eq_ok_iff {options valid : Options} :
    options.validate = .ok valid ↔ valid = options ∧ 1 ≤ options.maxDepth := by
  rw [validate, Nat.one_le_iff_ne_zero]
  split
  · next zero => simp [zero]
  · next pos => simp [pos, eq_comm]

theorem one_le_of_validate {options valid : Options} (h : options.validate = .ok valid) :
    1 ≤ valid.maxDepth := by
  obtain ⟨rfl, le⟩ := validate_eq_ok_iff.mp h
  exact le

/-- Options that are read grant at least one level. -/
theorem one_le_of_ofDocument {limit : Document.Limit} {document : Document} {options : Options}
    (h : ofDocument limit document = .ok options) : 1 ≤ options.maxDepth := by
  unfold ofDocument at h
  split at h
  · exact one_le_of_validate h
  · cases h

/-- Options that are read from a text grant at least one level. -/
theorem one_le_of_ofText {text : String} {options : Options} (h : ofText text = .ok options) :
    1 ≤ options.maxDepth := by
  unfold ofText at h
  split at h
  · exact one_le_of_ofDocument h
  · cases h

/-! ### Overriding -/

/-- The value that a variable gives, if it is set, in place of another. -/
def readVariable {α : Type} (read? : String → Option α) (name : String) (kind : VariableKind)
    (set : Option String) (value : α) : Except OptionsError α :=
  match set with
  | none => .ok value
  | some text => match read? text with
    | some value => .ok value
    | none => .error (.variable name text kind)

/-- Overriding reads one variable after the other, then checks the options. -/
theorem override_eq (options : Options) (overrides : Overrides) :
    options.override overrides = (do
      let policy ← readVariable (fun text => (readFlag? text).map .ofStrict)
        Overrides.strictIdsVariable .flag overrides.strictIds options.policy
      let maxDepth ← readVariable readCount? Overrides.maxDepthVariable .count
        overrides.maxDepth options.maxDepth
      Options.validate ⟨policy, maxDepth⟩) := by
  obtain ⟨strictIds, maxDepth⟩ := overrides
  unfold override readVariable
  rcases strictIds with _ | flag
  · rcases maxDepth with _ | count
    · rfl
    · dsimp only
      rcases readCount? count <;> rfl
  · dsimp only
    rcases readFlag? flag with _ | isStrict
    · rfl
    · rcases maxDepth with _ | count
      · rfl
      · dsimp only [Option.map]
        rcases readCount? count <;> rfl

/-- Options that are overridden grant at least one level, whatever the options before. -/
theorem one_le_of_override {options overridden : Options} {overrides : Overrides}
    (h : options.override overrides = .ok overridden) : 1 ≤ overridden.maxDepth := by
  rw [override_eq] at h
  obtain ⟨policy, -, h⟩ := Except.bind_eq_ok_iff.mp h
  obtain ⟨maxDepth, -, h⟩ := Except.bind_eq_ok_iff.mp h
  exact one_le_of_validate h

end FilterQuery.Options
