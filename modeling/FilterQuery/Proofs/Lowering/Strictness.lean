import FilterQuery.Proofs.Lowering.Limit

/-!
# The strict policy

The two policies differ in one thing: at the first identifier that cannot be decoded the strict
one refuses the filter, where the lenient one reports that it keeps the string and goes on.
Everything before that point is the same, so the lenient lowering tells what the strict one does
(`lower_strict`): the same, if it keeps no such identifier; otherwise the strict lowering reports
what the lenient one reports before the first of them, and fails with it.
-/

namespace FilterQuery

namespace Lowering

open Run (Congruence bind_of_error bind_of_ok)

/-- None of the events is that an identifier which cannot be decoded is kept. -/
def KeepsNone (events : List Event) : Prop := ∀ event ∈ events, ¬ event.IsUndecodableKept

theorem KeepsNone.append {first second : List Event} (h₁ : KeepsNone first)
    (h₂ : KeepsNone second) : KeepsNone (first ++ second) := by
  intro event mem
  rcases List.mem_append.mp mem with mem | mem
  · exact h₁ event mem
  · exact h₂ event mem

/-- **Refusing.** The second run is the first if that keeps no undecodable identifier. Otherwise
it ends where the first keeps one for the first time, with the reason why the codec cannot decode
it. -/
def Refuses (codec : Codec) {α : Type} (x y : Run α) : Prop :=
  (KeepsNone x.events ∧ y = x) ∨
    ∃ before value cause after, x.events = before ++ .undecodableKept value cause :: after ∧
      KeepsNone before ∧ codec.decode value = .error cause ∧
      y = ⟨before, .error (.invalidIdentifier value cause)⟩

/-- Sequences of runs respect refusing. -/
def refusal (codec : Codec) : Congruence where
  Rel := Refuses codec
  rel_pure _ := .inl ⟨nofun, rfl⟩
  rel_bind {_ _ x y f g} h follow := by
    rcases h with ⟨keeps, rfl⟩ | ⟨before, value, cause, after, split, keeps, undecodable, rfl⟩
    · rcases hy : y.result with e | a
      · rw [bind_of_error hy, bind_of_error hy]
        exact .inl ⟨keeps, rfl⟩
      · rw [bind_of_ok hy, bind_of_ok hy]
        rcases follow a hy with ⟨keeps', eq⟩ | ⟨before, value, cause, after, split, keeps', rest⟩
        · exact .inl ⟨keeps.append keeps', by rw [eq]⟩
        · obtain ⟨undecodable, eq⟩ := rest
          refine .inr ⟨y.events ++ before, value, cause, after, ?_, keeps.append keeps',
            undecodable, by rw [eq]⟩
          rw [split, List.append_assoc]
    · -- The second run has ended; what follows the first comes after the identifier.
      rw [bind_of_error (x := ⟨before, _⟩) rfl]
      rcases hx : x.result with e | a
      · rw [bind_of_error hx]
        exact .inr ⟨before, value, cause, after, split, keeps, undecodable, rfl⟩
      · rw [bind_of_ok hx]
        refine .inr ⟨before, value, cause, after ++ (f a).events, ?_, keeps, undecodable, rfl⟩
        rw [split, List.append_assoc, List.cons_append]

theorem keepsNone_singleton {event : Event} (not : ¬ event.IsUndecodableKept) :
    KeepsNone [event] := by
  intro other mem
  rwa [List.mem_singleton.mp mem]

/-- The strict policy refuses what the lenient one keeps. -/
theorem localId_refuses (codec : Codec) (cls encoded : String) :
    Refuses codec (localId codec .lenient cls encoded) (localId codec .strict cls encoded) := by
  unfold localId
  rcases h : codec.decode encoded with cause | identifier
  · exact .inr ⟨[], encoded, cause, [], rfl, nofun, h, rfl⟩
  · dsimp only
    rcases identifier.localId? cls with _ | id
    · exact .inl ⟨keepsNone_singleton nofun, rfl⟩
    · exact .inl ⟨nofun, rfl⟩

/-- **The strict policy.** The lowering with the lenient policy fails only at the limit. If it
keeps no identifier that cannot be decoded, the lowering with the strict policy is the same.
Otherwise the strict one reports what the lenient one reports before it keeps the first of them,
and fails with this identifier and with the reason why the codec cannot decode it. -/
theorem lower_strict (schema : Schema) (codec : Codec) (limit : Nat) (cls : String)
    (input : Json) :
    let options : Options := { policy := .lenient, maxDepth := limit }
    let lenient := lower (.of schema codec options) cls input
    let strict := lower (.of schema codec options.strict) cls input
    (∀ error, lenient.result = .error error → error = .depthExceeded limit) ∧
      ((KeepsNone lenient.events ∧ strict = lenient) ∨
        ∃ before value cause after,
          lenient.events = before ++ .undecodableKept value cause :: after ∧
          KeepsNone before ∧ codec.decode value = .error cause ∧
          strict = ⟨before, .error (.invalidIdentifier value cause)⟩) := by
  intro options lenient strict
  have alike : Context.Alike (refusal codec) (fun _ => True) (.of schema codec options)
      (.of schema codec options.strict) :=
    ⟨fun event not => .inl ⟨keepsNone_singleton not, rfl⟩, localId_refuses codec,
      fun _ _ _ => rfl, fun _ _ _ _ _ _ => trivial⟩
  refine ⟨fun error => depthExceeded_of_lenient, ?_⟩
  exact lower_rel_of_limit_eq alike trivial rfl (.inl ⟨nofun, rfl⟩) input

end Lowering

end FilterQuery
