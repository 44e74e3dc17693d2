import FilterQuery.Proofs.Except
import FilterQuery.Proofs.Lowering.Simulation

/-!
# Levels and the limit

A lowering that may enter some levels reads the limit of its context only to report it. So what is
lowered at some depth, where fewer levels are left, is lowered as it would be on its own under the
limit of the levels that are left (`value_belowAt`); only the limit that an error names is that of
the whole lowering.
-/

namespace FilterQuery

/-- The error, naming another limit if it names one. -/
def LoweringError.underLimit (limit : Nat) : LoweringError → LoweringError
  | .depthExceeded _ => .depthExceeded limit
  | error => error

namespace Run

/-- The run, with another limit in its error. -/
def underLimit (limit : Nat) {α : Type} (x : Run α) : Run α :=
  ⟨x.events, x.result.mapError (·.underLimit limit)⟩

theorem result_underLimit (limit : Nat) {α : Type} (x : Run α) :
    (x.underLimit limit).result = x.result.mapError (·.underLimit limit) := rfl

/-- What ends at once names no limit. -/
theorem underLimit_pure (limit : Nat) {α : Type} (a : α) :
    (pure a : Run α).underLimit limit = pure a := rfl

/-- **Limits.** The second run is the first with another limit in its error. -/
def Congruence.limits (limit : Nat) : Congruence where
  Rel x y := y = x.underLimit limit
  rel_pure a := (underLimit_pure limit a).symm
  rel_bind {_ _ x y f g} h follow := by
    subst h
    rcases hx : x.result with e | a
    · have ends : (x.underLimit limit).result = .error (e.underLimit limit) := by
        rw [result_underLimit, hx]
        rfl
      rw [bind_of_error hx, bind_of_error ends]
      rfl
    · have goesOn : (x.underLimit limit).result = .ok a := by
        rw [result_underLimit, hx]
        rfl
      rw [bind_of_ok hx, bind_of_ok goesOn, follow a hx]
      rfl

end Run

namespace Lowering

/-- Decoding an identifier has nothing to do with limits. -/
theorem localId_underLimit (codec : Codec) (policy : IdentifierPolicy) (cls encoded : String)
    (limit : Nat) :
    localId codec policy cls encoded = (localId codec policy cls encoded).underLimit limit := by
  unfold localId
  split
  · split <;> rfl
  · cases policy <;> rfl

/-- **Levels.** What may enter some levels is lowered as it would be on its own under the limit of
these levels, up to the limit that an error names. -/
theorem value_belowAt (schema : Schema) (codec : Codec) (policy : IdentifierPolicy)
    (limit levels : Nat) (cls : String) (input : Json) :
    (belowAt ⟨schema, codec, policy, limit⟩ levels).value cls input =
      (lower ⟨schema, codec, policy, levels⟩ cls input).underLimit limit := by
  let own : Context := ⟨schema, codec, policy, levels⟩
  let whole : Context := ⟨schema, codec, policy, limit⟩
  have alike : Context.Alike (.limits limit) (fun _ => True) own whole :=
    ⟨fun _ _ => rfl, fun cls encoded => localId_underLimit codec policy cls encoded limit,
      fun _ _ _ => rfl, fun _ _ _ _ _ _ => trivial⟩
  -- Both end where no level is left, each with its own limit.
  have below : Below.Alike (.limits limit) (fun _ => True) input.objectDepth
      (belowAt own levels) (belowAt whole (levels + 0)) := by
    refine below_alike alike ?_ ?_ levels input.objectDepth
    · exact fun _ _ _ => rfl
    · exact fun _ _ _ _ _ => rfl
  exact below.value trivial (.of_le (Nat.le_refl _))

/-- The query of what may enter some levels is its query under the limit of these levels. -/
theorem value_belowAt_eq_ok_iff {cx : Context} {levels : Nat} {cls : String} {input query : Json} :
    ((belowAt cx levels).value cls input).result = .ok query ↔
      (lower { cx with limit := levels } cls input).result = .ok query := by
  rw [value_belowAt, Run.result_underLimit, Except.mapError_eq_ok_iff]

end Lowering

end FilterQuery
