import FilterQuery.Proofs.Lowering.Simulation
import Mathlib.Data.Nat.Find

/-!
# The limit

The limit of a context says how deep lowering may go. Whether a filter stays within it is a
property of the filter: there is a number of levels that the filter needs, which is at most its
depth, and lowering succeeds exactly under the limits that grant these levels
(`exists_levels_needed`). Which levels are granted beyond makes no difference to the query.

Three facts make it up. A lowering under a smaller limit is the one under a greater limit, or a
beginning of it (`lower_cutAt`). A limit as great as the depth is never exceeded
(`lower_of_depth_le`). If identifiers that cannot be decoded are kept, nothing but the limit makes
a lowering fail (`depthExceeded_of_lenient`).

The first of them says more of reports: a limit that is exceeded shortens them, and one that is not
exceeded has no part in them (`lower_of_limit_lt`).
-/

namespace FilterQuery

namespace Lowering

variable {schema : Schema} {codec : Codec} {policy : IdentifierPolicy} {cls : String}

/-- A lowering under a limit is the lowering under a greater limit, or a beginning of it that
ended at the smaller limit. -/
theorem lower_cutAt (schema : Schema) (codec : Codec) (policy : IdentifierPolicy) (cls : String)
    (input : Json) {limit limit' : Nat} (le : limit ≤ limit') :
    (Run.Congruence.cutAt limit).Rel (lower ⟨schema, codec, policy, limit⟩ cls input)
      (lower ⟨schema, codec, policy, limit'⟩ cls input) := by
  obtain ⟨extra, rfl⟩ := Nat.exists_eq_add_of_le le
  have alike : Context.Alike (.cutAt limit) (fun _ => True)
      ⟨schema, codec, policy, limit⟩ ⟨schema, codec, policy, limit + extra⟩ :=
    ⟨fun _ _ => .inr rfl, fun _ _ => .inr rfl, fun _ _ _ => rfl, fun _ _ _ _ _ _ => trivial⟩
  -- Where the first lowering has no level left it ends before it reports anything.
  refine lower_rel alike trivial rfl (fun _ _ _ => ?_) (fun _ _ _ _ _ => ?_) input
  · exact .inl ⟨rfl, List.nil_prefix⟩
  · exact .inl ⟨rfl, List.nil_prefix⟩

/-- The query under a limit is the query under every greater limit. -/
theorem lower_of_limit_le {limit limit' : Nat} (le : limit ≤ limit') {input query : Json}
    (h : (lower ⟨schema, codec, policy, limit⟩ cls input).result = .ok query) :
    (lower ⟨schema, codec, policy, limit'⟩ cls input).result = .ok query := by
  rcases lower_cutAt schema codec policy cls input le with ⟨cut, -⟩ | same
  · rw [h] at cut
    cases cut
  · rw [← same, h]

theorem localId_lenient (codec : Codec) (cls encoded : String) :
    ∃ text, (localId codec .lenient cls encoded).result = .ok text := by
  unfold localId
  split
  · split
    · exact ⟨_, rfl⟩
    · exact ⟨_, rfl⟩
  · exact ⟨_, rfl⟩

/-- If identifiers that cannot be decoded are kept, lowering fails only at the limit. -/
theorem depthExceeded_of_lenient {limit : Nat} {input : Json} {error : LoweringError}
    (h : (lower ⟨schema, codec, .lenient, limit⟩ cls input).result = .error error) :
    error = .depthExceeded limit := by
  let cx : Context := ⟨schema, codec, .lenient, limit⟩
  have alike : Context.Alike (.errorsIn (· = .depthExceeded limit)) (fun _ => True) cx cx := by
    refine ⟨fun _ _ => nofun, fun cls encoded e he => ?_, fun _ _ _ => rfl,
      fun _ _ _ _ _ _ => trivial⟩
    obtain ⟨text, htext⟩ := localId_lenient codec cls encoded
    rw [htext] at he
    cases he
  refine lower_rel_of_limit_eq alike trivial rfl ?_ input error h
  rintro _ e ⟨⟩
  rfl

/-- If identifiers that cannot be decoded are kept, objects up to the number of levels that may
be entered are lowered with success. -/
theorem belowAt_success (cx : Context) (lenient : cx.policy = .lenient) (levels : Nat) :
    Below.Alike .success (fun _ => True) levels (belowAt cx levels) (belowAt cx levels) := by
  have alike : Context.Alike .success (fun _ => True) cx cx := by
    refine ⟨fun _ _ => ⟨_, rfl⟩, fun cls encoded => ?_, fun _ _ _ => rfl,
      fun _ _ _ _ _ _ => trivial⟩
    rw [lenient]
    exact localId_lenient cx.codec cls encoded
  induction levels with
  | zero =>
    constructor
    · intro cls _ filter le
      exact absurd le (Nat.not_succ_le_zero _)
    · intro cls _ field key operands le
      exact absurd le (Nat.not_succ_le_zero _)
  | succ levels ih =>
    -- The members are less deep by one, so the levels that are left are enough for them.
    constructor
    · intro cls mem filter le
      exact filterStep_rel alike (ih.mono (Nat.le_of_succ_le_succ le)) mem
    · intro cls mem field key operands le
      exact fieldStep_rel alike (ih.mono (Nat.le_of_succ_le_succ le)) mem field key

/-- If identifiers that cannot be decoded are kept, a limit as great as the depth of the filter is
not exceeded. -/
theorem lower_of_depth_le {limit : Nat} {input : Json} (le : input.objectDepth ≤ limit) :
    ∃ query, (lower ⟨schema, codec, .lenient, limit⟩ cls input).result = .ok query :=
  (belowAt_success ⟨schema, codec, .lenient, limit⟩ rfl limit).value trivial (.of_le le)

/-- **The limit.** If identifiers that cannot be decoded are kept, a filter needs a number of
levels, at most its depth, whatever the limit. Under a limit that grants them it is lowered, to
one and the same query; under any smaller limit, the limit is exceeded. -/
theorem exists_levels_needed (schema : Schema) (codec : Codec) (cls : String) (input : Json) :
    ∃ needed ≤ input.objectDepth, ∃ query, ∀ limit : Nat,
      let options : Options := { policy := .lenient, maxDepth := limit }
      let result := (lower (.of schema codec options) cls input).result
      (needed ≤ limit → result = .ok query) ∧
        (limit < needed → result = .error (.depthExceeded limit)) := by
  classical
  let result (limit : Nat) := (lower ⟨schema, codec, .lenient, limit⟩ cls input).result
  have granted : ∃ limit query, result limit = .ok query :=
    ⟨input.objectDepth, lower_of_depth_le (Nat.le_refl _)⟩
  -- What a filter needs is the least limit under which it has a query.
  obtain ⟨query, hquery⟩ := Nat.find_spec granted
  refine ⟨Nat.find granted, Nat.find_min' granted (lower_of_depth_le (Nat.le_refl _)), query,
    fun limit => ⟨fun le => ?_, fun lt => ?_⟩⟩
  · exact lower_of_limit_le le hquery
  · rcases h : result limit with error | query'
    · exact h.trans (congrArg _ (depthExceeded_of_lenient h))
    · exact absurd ⟨query', h⟩ (Nat.find_min granted lt)

/-! ### Reports of cut lowerings -/

/-- **Reports.** If the limit is exceeded, what is reported until then is reported first under every
greater limit too, whatever comes of the lowering there. If it is not, the lowering under a greater
limit is the same, with the same reports. -/
theorem lower_of_limit_lt (schema : Schema) (codec : Codec) (policy : IdentifierPolicy)
    (cls : String) (input : Json) {limit limit' : Nat} (lt : limit < limit') :
    let run (maxDepth : Nat) := lower (.of schema codec { policy, maxDepth }) cls input
    (∀ reached, (run limit).result = .error (.depthExceeded reached) →
        (run limit).events <+: (run limit').events) ∧
      ((∃ query, (run limit).result = .ok query) ∨
          (∃ value cause, (run limit).result = .error (.invalidIdentifier value cause)) →
        (run limit').result = (run limit).result ∧ (run limit').events = (run limit).events) := by
  intro run
  rcases lower_cutAt schema codec policy cls input (Nat.le_of_lt lt) with ⟨cut, beginning⟩ | same
  · refine ⟨fun _ _ => beginning, ?_⟩
    -- A run that was cut neither succeeds nor refuses an identifier.
    rintro (⟨query, ok⟩ | ⟨value, cause, refused⟩)
    · exact absurd (cut.symm.trans ok) nofun
    · exact absurd (cut.symm.trans refused) nofun
  · have eq : run limit' = run limit := same.symm
    refine ⟨fun _ _ => ?_, fun _ => ?_⟩
    · exact eq ▸ List.prefix_rfl
    · exact ⟨congrArg Run.result eq, congrArg Run.events eq⟩

/-- Asks for posts whose author satisfies a filter, and for one with a local id in place of an
identifier. -/
def postOfAuthor : Json :=
  .obj (.ofList [
    ("AND", .arr [.obj (.singleton "author" (.obj (.singleton "where" (.obj (.singleton "name"
      (.obj (.singleton "equalTo" (.str "Ann"))))))))]),
    ("id", .obj (.singleton "equalTo" (.str "1")))])

/-- Five levels are enough for the filter on the author, and then the identifier is refused. With
four, the lowering ends one report after its start. -/
theorem lower_postOfAuthor_of_limit :
    let run (maxDepth : Nat) :=
      lower (.of ∅ .relay { policy := .strict, maxDepth }) "Post" postOfAuthor
    4 < 5 ∧ (run 4).result = .error (.depthExceeded 4) ∧
      (∃ cause, (run 5).result = .error (.invalidIdentifier "1" cause)) ∧
      (run 4).events = [.fieldEntered "author" "Post"] ∧
      (run 4).events <+: (run 5).events ∧ (run 6).events = (run 5).events := by
  intro run
  have cut : (run 4).result = .error (.depthExceeded 4) := rfl
  have refused : ∃ cause, (run 5).result = .error (.invalidIdentifier "1" cause) := ⟨_, rfl⟩
  have shorter := lower_of_limit_lt ∅ .relay .strict "Post" postOfAuthor (show 4 < 5 by decide)
  have same := lower_of_limit_lt ∅ .relay .strict "Post" postOfAuthor (show 5 < 6 by decide)
  obtain ⟨cause, refusal⟩ := refused
  exact ⟨by decide, cut, ⟨cause, refusal⟩, rfl, shorter.1 4 cut,
    (same.2 (.inr ⟨"1", cause, refusal⟩)).2⟩

end Lowering

end FilterQuery
