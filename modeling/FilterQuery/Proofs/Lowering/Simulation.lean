import FilterQuery.Lowering.Basic
import FilterQuery.Proofs.Depth
import FilterQuery.Proofs.Run.Congruence
import FilterQuery.Proofs.Run.Results
import FilterQuery.Proofs.Schema

/-!
# Simulations between lowerings

Two lowerings of one filter, in contexts that differ, take the same steps as long as what the
contexts are asked is answered alike. `Context.Alike` says what that means for a congruence of
runs and for a set of classes that links do not leave, and `Below.Alike` says that what lies below
is related already. From these, a step of the one lowering is related to the step of the other
(`filterStep_rel`, `fieldStep_rel`), and by induction on the levels so are whole lowerings
(`filterAt_rel`).

The steps ask what lies below only about objects that are less deep than the one at hand, so
`Below.Alike` has a depth. With it the same statements serve for inductions on the depth of the
filter.
-/

namespace FilterQuery

/-- The event that an identifier which cannot be decoded is kept. -/
def Event.IsUndecodableKept (event : Event) : Prop :=
  ∃ value cause, event = .undecodableKept value cause

open Lowering

/-- **Contexts that are alike.** For the classes of a set, which links do not leave, the schemas
agree on the links. What is done with an identifier is related, and so are reports. -/
structure Context.Alike (R : Run.Congruence) (classes : String → Prop) (cx₁ cx₂ : Context) :
    Prop where
  /-- A report is related to itself. -/
  emit : ∀ event : Event, ¬ event.IsUndecodableKept → R.Rel (Run.emit event) (Run.emit event)
  /-- Decoding an identifier is related. -/
  localId : ∀ cls encoded, R.Rel (localId cx₁.codec cx₁.policy cls encoded)
    (localId cx₂.codec cx₂.policy cls encoded)
  /-- The links are the same. -/
  link : ∀ cls, classes cls → ∀ field,
    cx₁.schema.link? cls field = cx₂.schema.link? cls field
  /-- Links lead to classes of the set only. -/
  closed : ∀ cls, classes cls → ∀ field type target,
    cx₁.schema.link? cls field = some ⟨type, some target⟩ → classes target

/-- **Levels below that are alike.** They treat objects up to a depth in related ways, for the
classes of a set. -/
structure Lowering.Below.Alike (R : Run.Congruence) (classes : String → Prop) (depth : Nat)
    (b₁ b₂ : Below) : Prop where
  /-- Filters are lowered in related ways. -/
  filter : ∀ cls, classes cls → ∀ filter : Object, (Json.obj filter).objectDepth ≤ depth →
    R.Rel (b₁.filter cls filter) (b₂.filter cls filter)
  /-- Conditions are lowered in related ways. -/
  field : ∀ cls, classes cls → ∀ field key, ∀ operands : Object,
    (Json.obj operands).objectDepth ≤ depth →
    R.Rel (b₁.field cls field key operands) (b₂.field cls field key operands)

/-- A value that is no object, or an object up to a depth. -/
def Json.Shallow (depth : Nat) (value : Json) : Prop :=
  ∀ nested, value = .obj nested → (Json.obj nested).objectDepth ≤ depth

theorem Json.Shallow.of_le {depth : Nat} {value : Json} (le : value.objectDepth ≤ depth) :
    value.Shallow depth := by
  rintro nested rfl
  exact le

namespace Lowering

variable {R : Run.Congruence} {classes : String → Prop} {cx₁ cx₂ : Context} {b₁ b₂ : Below}
  {depth : Nat} {cls : String}

theorem Below.Alike.mono {smaller : Nat} (below : Below.Alike R classes depth b₁ b₂)
    (le : smaller ≤ depth) : Below.Alike R classes smaller b₁ b₂ := by
  constructor
  · intro cls mem filter h
    exact below.filter cls mem filter (Nat.le_trans h le)
  · intro cls mem field key operands h
    exact below.field cls mem field key operands (Nat.le_trans h le)

/-! ### Values and references -/

theorem Below.Alike.value (below : Below.Alike R classes depth b₁ b₂) (mem : classes cls)
    {value : Json} (shallow : value.Shallow depth) :
    R.Rel (b₁.value cls value) (b₂.value cls value) := by
  cases value with
  | obj filter => exact R.rel_map _ (below.filter cls mem filter (shallow filter rfl))
  | _ => exact R.rel_pure _

section References

variable {r₁ r₂ : Field} {field name : String} {operand : Json}

theorem lowerFor_rel (below : Below.Alike R classes depth b₁ b₂) (link : r₁.link = r₂.link)
    (closed : ∀ target, r₁.targetClass = some target → classes target)
    (shallow : operand.Shallow depth) :
    R.Rel (lowerFor b₁.value r₁ operand) (lowerFor b₂.value r₂ operand) := by
  have same : r₁.targetClass = r₂.targetClass := congrArg Link.target link
  unfold lowerFor
  rw [← same]
  rcases h : r₁.targetClass with _ | target
  · exact R.rel_pure operand
  · exact below.value (closed target h) shallow

theorem expand_rel (alike : Context.Alike R classes cx₁ cx₂)
    (below : Below.Alike R classes depth b₁ b₂) (link : r₁.link = r₂.link)
    (closed : ∀ target, r₁.targetClass = some target → classes target)
    (shallow : operand.Shallow depth) (operator : Operator) :
    R.Rel (expand b₁.value field operator r₁ operand)
      (expand b₂.value field operator r₂ operand) := by
  have same : r₁.targetClass = r₂.targetClass := congrArg Link.target link
  unfold expand
  rw [← same]
  refine R.rel_bind (alike.emit _ ?_) fun _ _ => ?_
  · -- Whether the class is known or not, the report is on a subquery.
    rintro ⟨value, cause, eq⟩
    split at eq <;> cases eq
  · exact R.rel_bind (lowerFor_rel below link closed shallow) fun _ _ => R.rel_pure _

theorem referencePart_rel (alike : Context.Alike R classes cx₁ cx₂)
    (below : Below.Alike R classes depth b₁ b₂) (link : r₁.link = r₂.link)
    (closed : ∀ target, r₁.targetClass = some target → classes target)
    (shallow : operand.Shallow depth) :
    R.Rel (referencePart b₁ field r₁ name operand) (referencePart b₂ field r₂ name operand) := by
  unfold referencePart
  generalize RelationVerb.ofName? name = verb
  generalize Operator.ofName? name = operator
  match verb, operator with
  | some .presence, _ => exact R.rel_pure _
  | some .matching, _ =>
    exact R.rel_bind (expand_rel alike below link closed shallow _) fun _ _ => R.rel_pure _
  | some .notMatching, _ =>
    exact R.rel_bind (expand_rel alike below link closed shallow _) fun _ _ => R.rel_pure _
  | none, some operator => exact R.rel_pure _
  | none, none =>
    dsimp only
    split
    · exact R.rel_bind (lowerFor_rel below link closed shallow) fun _ _ => R.rel_pure _
    · exact R.rel_bind (alike.emit _ nofun) fun _ _ => R.rel_pure _

theorem applyPresence_rel (alike : Context.Alike R classes cx₁ cx₂) (link : r₁.link = r₂.link)
    (flag : Json) (lowered : Object) :
    R.Rel (applyPresence field r₁ flag lowered) (applyPresence field r₂ flag lowered) := by
  have type : r₁.type = r₂.type := congrArg Link.type link
  have target : r₁.targetClass = r₂.targetClass := congrArg Link.target link
  unfold applyPresence allReferred
  rw [← type, ← target]
  split
  · exact R.rel_pure _
  · dsimp only
    split
    · exact R.rel_bind (alike.emit _ nofun) fun _ _ => R.rel_pure _
    · exact R.rel_pure _

end References

/-! ### Conditions of a field -/

section Fields

variable {field name : String}

theorem plainPart_rel (below : Below.Alike R classes depth b₁ b₂) (mem : classes cls)
    {operand : Json} (shallow : operand.Shallow depth) :
    R.Rel (plainPart b₁ cls name (.ofJson operand)) (plainPart b₂ cls name (.ofJson operand)) := by
  unfold plainPart
  rcases h : Geo.encode (Operator.ofName? name) (.ofJson operand) with _ | _ | _ | _ | _ | nested
  case obj =>
    -- Only an object goes below; it is the operand itself or the operand with a stamp.
    have le : (Json.obj nested).objectDepth ≤ depth := by
      obtain ⟨members, hmembers, -⟩ := Geo.members_of_encode h
      rw [Operand.toJson_ofJson] at hmembers
      have encoded := Geo.objectDepth_of_encode h
      rw [hmembers] at encoded
      exact Nat.le_trans encoded (shallow members hmembers)
    dsimp only
    split
    · exact R.rel_bind (below.filter cls mem nested le) fun _ _ => R.rel_pure _
    · exact R.rel_bind (below.field cls mem name _ nested le) fun _ _ => R.rel_pure _
  all_goals exact R.rel_pure _

/-- The references that two contexts know for a field of a class in the set. -/
theorem reference_cases (alike : Context.Alike R classes cx₁ cx₂) (mem : classes cls)
    (field : String) :
    (cx₁.schema.reference? cls field = none ∧ cx₂.schema.reference? cls field = none) ∨
      ∃ r₁ r₂, cx₁.schema.reference? cls field = some r₁ ∧
        cx₂.schema.reference? cls field = some r₂ ∧ r₁.link = r₂.link ∧
        ∀ target, r₁.targetClass = some target → classes target := by
  have link := alike.link cls mem field
  have closed := alike.closed cls mem field
  unfold Schema.link? at link closed
  rcases h₁ : cx₁.schema.reference? cls field with _ | r₁
  · rw [h₁] at link
    exact .inl ⟨rfl, Option.map_eq_none_iff.mp link.symm⟩
  · rw [h₁] at link closed
    obtain ⟨r₂, h₂, eq⟩ := Option.map_eq_some_iff.mp link.symm
    refine .inr ⟨r₁, r₂, rfl, h₂, eq.symm, fun target htarget => ?_⟩
    exact closed r₁.type target (by rw [Option.map_some, Field.link, htarget])

theorem part_rel (alike : Context.Alike R classes cx₁ cx₂)
    (below : Below.Alike R classes depth b₁ b₂) (mem : classes cls) {operand : Json}
    (shallow : operand.Shallow depth) :
    R.Rel (part cx₁ b₁ cls field name operand) (part cx₂ b₂ cls field name operand) := by
  unfold part
  split
  · exact R.rel_bind (alike.emit _ nofun) fun _ _ => R.rel_pure _
  · rcases reference_cases alike mem field with ⟨h₁, h₂⟩ | ⟨r₁, r₂, h₁, h₂, link, closed⟩
    · rw [h₁, h₂]
      exact plainPart_rel below mem shallow
    · rw [h₁, h₂]
      exact referencePart_rel alike below link closed shallow

theorem localItem_rel (alike : Context.Alike R classes cx₁ cx₂) (item : Json) :
    R.Rel (localItem cx₁.codec cx₁.policy cls item) (localItem cx₂.codec cx₂.policy cls item) := by
  cases item with
  | str encoded => exact R.rel_map _ (alike.localId cls encoded)
  | _ => exact R.rel_pure _

theorem localOperand_rel (alike : Context.Alike R classes cx₁ cx₂) (operand : Json) :
    R.Rel (localOperand cx₁.codec cx₁.policy cls operand)
      (localOperand cx₂.codec cx₂.policy cls operand) := by
  cases operand with
  | str encoded => exact R.rel_map _ (alike.localId cls encoded)
  | arr items => exact R.rel_map _ (R.rel_mapM fun item _ => localItem_rel alike item)
  | _ => exact R.rel_pure _

theorem conditions_rel (alike : Context.Alike R classes cx₁ cx₂) (operands : Object) :
    R.Rel (conditions cx₁ cls field operands) (conditions cx₂ cls field operands) := by
  unfold conditions
  split
  · refine R.rel_bind (alike.emit _ nofun) fun _ _ => R.rel_mapM fun condition _ => ?_
    exact R.rel_bind (localOperand_rel alike condition.2) fun _ _ => R.rel_pure _
  · exact R.rel_pure _

/-- The objects among the conditions of a field are as they were given. -/
theorem shallow_of_conditions {cx : Context} {operands : Object} {entries : List (String × Json)}
    (h : (conditions cx cls field operands).result = .ok entries) :
    ∀ entry ∈ entries, entry.2.Shallow (Json.membersDepth operands) := by
  have given : ∀ entry ∈ operands.toList, entry.2.Shallow (Json.membersDepth operands) :=
    fun entry mem => .of_le (Json.membersDepth_le_iff.mp (Nat.le_refl _) entry mem)
  unfold conditions at h
  split at h
  · obtain ⟨-, -, h⟩ := Run.exists_of_bind h
    intro entry mem nested eq
    obtain ⟨condition, hcondition, hentry⟩ := Run.exists_of_mem_mapM h entry mem
    obtain ⟨operand, hoperand, hpair⟩ := Run.exists_of_bind hentry
    cases hpair
    cases eq
    exact given condition hcondition nested (obj_of_localOperand hoperand)
  · cases h
    exact given

theorem assemble_rel (alike : Context.Alike R classes cx₁ cx₂) (mem : classes cls)
    (parts : List Part) :
    R.Rel (assemble cx₁ cls field parts) (assemble cx₂ cls field parts) := by
  unfold assemble
  rcases reference_cases alike mem field with ⟨h₁, h₂⟩ | ⟨r₁, r₂, h₁, h₂, link, -⟩
  · rw [h₁, h₂]
    exact R.rel_pure _
  · rw [h₁, h₂]
    rcases parts.findSome? Part.presence? with _ | flag
    · exact R.rel_pure _
    · exact applyPresence_rel alike link flag _

end Fields

/-! ### Steps -/

/-- **Fields.** The step for the conditions of a field is related if what lies below is, up to the
depth of the operands. -/
theorem fieldStep_rel (alike : Context.Alike R classes cx₁ cx₂) {operands : Object}
    (below : Below.Alike R classes (Json.membersDepth operands) b₁ b₂) (mem : classes cls)
    (field key : String) :
    R.Rel (fieldStep cx₁ b₁ cls field key operands) (fieldStep cx₂ b₂ cls field key operands) := by
  unfold fieldStep
  refine R.rel_bind (alike.emit _ nofun) fun _ _ => ?_
  -- The first run has a result here, so its conditions are known to hold no new objects.
  refine R.rel_bind (conditions_rel alike operands) fun entries hentries => ?_
  have shallow := shallow_of_conditions hentries
  refine R.rel_bind (R.rel_mapM fun entry hentry =>
    part_rel alike below mem (shallow entry hentry)) fun parts _ => ?_
  refine R.rel_bind (assemble_rel alike mem parts) fun lowered _ => ?_
  split
  · exact R.rel_pure _
  · exact R.rel_bind (alike.emit _ nofun) fun _ _ => R.rel_pure _

/-- **Filters.** The step for a filter is related if what lies below is, up to the depth of the
members. -/
theorem filterStep_rel (alike : Context.Alike R classes cx₁ cx₂) {filter : Object}
    (below : Below.Alike R classes (Json.membersDepth filter) b₁ b₂) (mem : classes cls) :
    R.Rel (filterStep b₁ cls filter) (filterStep b₂ cls filter) := by
  unfold filterStep
  refine R.rel_bind (R.rel_mapM ?_) fun _ _ => R.rel_pure _
  rintro ⟨key, value⟩ hentry
  have le : value.objectDepth ≤ Json.membersDepth filter :=
    Json.membersDepth_le_iff.mp (Nat.le_refl _) (key, value) hentry
  unfold entryStep
  split
  · refine R.rel_bind ?_ fun _ _ => R.rel_pure _
    cases value with
    | arr items =>
      -- The list between a filter and its branches adds no depth.
      refine R.rel_map _ (R.rel_mapM fun item hitem => ?_)
      exact below.value mem (.of_le (Nat.le_trans (Json.objectDepth_le_of_mem hitem) le))
    | _ => exact R.rel_bind (alike.emit _ nofun) fun _ _ => R.rel_pure _
  · cases value with
    | obj operands => exact below.field cls mem key key operands le
    | _ => exact R.rel_pure _

/-! ### Levels -/

/-- **Runs.** Lowerings are related if they are where no level is left; the second lowering may
have more levels than the first. -/
theorem below_alike (alike : Context.Alike R classes cx₁ cx₂) {extra : Nat}
    (filterEnd : ∀ cls, classes cls → ∀ filter,
      R.Rel (Run.fail (.depthExceeded cx₁.limit)) (filterAt cx₂ extra cls filter))
    (fieldEnd : ∀ cls, classes cls → ∀ field key operands,
      R.Rel (Run.fail (.depthExceeded cx₁.limit)) (fieldAt cx₂ extra cls field key operands))
    (levels depth : Nat) :
    Below.Alike R classes depth (belowAt cx₁ levels) (belowAt cx₂ (levels + extra)) := by
  -- Both lowerings spend one level at a time; the extra ones are left when the first has none.
  induction levels generalizing depth with
  | zero =>
    rw [Nat.zero_add]
    exact ⟨fun cls mem filter _ => filterEnd cls mem filter,
      fun cls mem field key operands _ => fieldEnd cls mem field key operands⟩
  | succ levels ih =>
    rw [Nat.add_right_comm]
    exact ⟨fun cls mem filter _ => filterStep_rel alike (ih _) mem,
      fun cls mem field key operands _ => fieldStep_rel alike (ih _) mem field key⟩

/-- Lowerings under limits of which the second may be greater. -/
theorem lower_rel (alike : Context.Alike R classes cx₁ cx₂) (mem : classes cls) {extra : Nat}
    (limits : cx₂.limit = cx₁.limit + extra)
    (filterEnd : ∀ cls, classes cls → ∀ filter,
      R.Rel (Run.fail (.depthExceeded cx₁.limit)) (filterAt cx₂ extra cls filter))
    (fieldEnd : ∀ cls, classes cls → ∀ field key operands,
      R.Rel (Run.fail (.depthExceeded cx₁.limit)) (fieldAt cx₂ extra cls field key operands))
    (input : Json) : R.Rel (lower cx₁ cls input) (lower cx₂ cls input) := by
  rw [lower, lower, limits]
  exact (below_alike alike filterEnd fieldEnd cx₁.limit input.objectDepth).value mem
    (.of_le (Nat.le_refl _))

/-- Lowerings under one limit. -/
theorem lower_rel_of_limit_eq (alike : Context.Alike R classes cx₁ cx₂) (mem : classes cls)
    (limits : cx₁.limit = cx₂.limit)
    (fail : ∀ {α : Type}, R.Rel (Run.fail (.depthExceeded cx₁.limit) : Run α)
      (Run.fail (.depthExceeded cx₂.limit)))
    (input : Json) : R.Rel (lower cx₁ cls input) (lower cx₂ cls input) := by
  have extra : cx₂.limit = cx₁.limit + 0 := limits.symm
  refine lower_rel alike mem extra (fun _ _ _ => ?_) (fun _ _ _ _ _ => ?_) input
  · exact fail
  · exact fail

end Lowering

end FilterQuery
