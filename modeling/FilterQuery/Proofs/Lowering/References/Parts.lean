import FilterQuery.Proofs.Lowering.Subqueries

/-!
# Conditions of references

Under a field that refers to objects of another class, the name of a condition tells what it means
there (`Kind`): it is a verb with a filter, the verb `exists`, an operator, a branch with a filter,
or it means nothing. Verbs, operators and branches come in two `Side`s, one that asks for objects
and one that asks that there are none.

So the part that a condition gives is known outright from its name, its operand, and the query of
its operand if that is a filter (`partOf`), and its name alone tells the key that it writes
(`key_of_partOf`).
-/

namespace FilterQuery

namespace Lowering

/-! ### Sides -/

/-- **Sides.** A condition asks for an object that the field refers to, or that there is none. -/
inductive Side
  /-- There is an object. -/
  | matching
  /-- There is no object. -/
  | notMatching
deriving DecidableEq, Repr

namespace Side

/-- The verb that takes a filter on the objects. -/
def verb : Side → RelationVerb
  | matching => .matching
  | notMatching => .notMatching

/-- The operator that the verb becomes. -/
def operator : Side → Operator
  | matching => .inQuery
  | notMatching => .notInQuery

/-- The key that keeps a filter on the objects. -/
def branch : Side → String
  | matching => whereKey
  | notMatching => notWhereKey

/-- The side that the flag of the verb `exists` is for. -/
def ofFlag (flag : Json) : Side := if flag.isTruthy then matching else notMatching

theorem target_operator_injective {a b : Side} (h : a.operator.target = b.operator.target) :
    a = b := by
  cases a <;> cases b <;> first | rfl | exact absurd h (by decide)

theorem branch_injective {a b : Side} (h : a.branch = b.branch) : a = b := by
  cases a <;> cases b <;> first | rfl | exact absurd h (by decide)

/-- A branch is no target. -/
theorem branch_ne_target (side : Side) (operator : Operator) : side.branch ≠ operator.target := by
  cases side <;> cases operator <;> decide

theorem operator_ne_presence (side : Side) : side.operator ≠ .presence := by
  cases side <;> decide

theorem target_operator_ne_presence (side : Side) :
    side.operator.target ≠ Operator.presence.target := fun eq =>
  side.operator_ne_presence (Operator.target_injective eq)

/-- A verb with a filter is no target. -/
theorem verb_name_ne_target (side : Side) (operator : Operator) :
    side.verb.name ≠ operator.target := by
  cases side <;> cases operator <;> decide

theorem verb_name_ne_branch (side other : Side) : side.verb.name ≠ other.branch := by
  cases side <;> cases other <;> decide

/-- A verb with a filter is no name of an operator. -/
theorem targetKey_verb_name (side : Side) : targetKey side.verb.name = side.verb.name := by
  cases side <;> decide

/-- The verb comes before the operator that it becomes. -/
theorem verb_name_lt (side : Side) : side.verb.name < side.operator.name := by
  cases side <;> decide

end Side

/-! ### Kinds of conditions -/

/-- **Kinds.** What the name of a condition means under a reference. -/
inductive Kind : String → Prop
  /-- The verb that asks whether there is an object. -/
  | presence : Kind RelationVerb.presence.name
  /-- A verb with a filter. -/
  | verb (side : Side) : Kind side.verb.name
  /-- An operator. -/
  | operator (operator : Operator) (ne : operator ≠ .presence) : Kind operator.name
  /-- A branch with a filter. -/
  | branch (side : Side) : Kind side.branch
  /-- Any other name, which means nothing. -/
  | other {name : String} (noVerb : RelationVerb.ofName? name = none)
    (noOperator : Operator.ofName? name = none) (noBranch : ∀ side : Side, name ≠ side.branch) :
    Kind name

/-- Every name is of some kind. -/
theorem Kind.of (name : String) : Kind name := by
  rcases isVerb : RelationVerb.ofName? name with _ | verb
  · rcases isOperator : Operator.ofName? name with _ | operator
    · by_cases isBranch : ∃ side : Side, name = side.branch
      · obtain ⟨side, rfl⟩ := isBranch
        exact .branch side
      · exact .other isVerb isOperator fun side eq => isBranch ⟨side, eq⟩
    · obtain rfl := Operator.name_of_ofName? isOperator
      refine .operator operator fun eq => ?_
      subst eq
      cases isVerb
  · obtain rfl := RelationVerb.name_of_ofName? isVerb
    clear isVerb
    cases verb with
    | matching => exact .verb .matching
    | notMatching => exact .verb .notMatching
    | presence => exact .presence

/-- An operator other than `exists` is no verb. -/
theorem ofName?_operator_name {operator : Operator} (ne : operator ≠ .presence) :
    RelationVerb.ofName? operator.name = none := by
  cases operator <;> first | rfl | exact absurd rfl ne

/-! ### Parts -/

/-- The part that a condition of a reference gives, where its operand as a filter becomes
`lowered`. -/
def partOf (reference : Field) (name : String) (operand lowered : Json) : Part :=
  match RelationVerb.ofName? name, Operator.ofName? name with
  | some .presence, _ => .presence operand
  | some .matching, _ =>
    .own [.set Operator.inQuery.target (subquery lowered reference.targetClass)]
  | some .notMatching, _ =>
    .own [.set Operator.notInQuery.target (subquery lowered reference.targetClass)]
  | none, some operator => .own [.set operator.target operand]
  | none, none => if name = whereKey ∨ name = notWhereKey then .own [.set name lowered] else .own []

/-- The operand of the name is a filter. -/
def TakesFilter (name : String) : Prop := ∃ side : Side, name = side.verb.name ∨ name = side.branch

section Parts

variable {below : Below} {field : String} {reference : Field}

theorem partOf_verb (reference : Field) (side : Side) (operand lowered : Json) :
    partOf reference side.verb.name operand lowered =
      .own [.set side.operator.target (subquery lowered reference.targetClass)] := by
  cases side <;> rfl

theorem partOf_operator (reference : Field) {operator : Operator} (ne : operator ≠ .presence)
    (operand lowered : Json) :
    partOf reference operator.name operand lowered = .own [.set operator.target operand] := by
  rw [partOf, ofName?_operator_name ne, Operator.ofName?_name]

theorem partOf_branch (reference : Field) (side : Side) (operand lowered : Json) :
    partOf reference side.branch operand lowered = .own [.set side.branch lowered] := by
  cases side <;> rfl

theorem partOf_other (reference : Field) {name : String} (noVerb : RelationVerb.ofName? name = none)
    (noOperator : Operator.ofName? name = none) (noBranch : ∀ side : Side, name ≠ side.branch)
    (operand lowered : Json) : partOf reference name operand lowered = .own [] := by
  have none : ¬(name = whereKey ∨ name = notWhereKey) := by
    rintro (eq | eq)
    · exact noBranch .matching eq
    · exact noBranch .notMatching eq
  rw [partOf, noVerb, noOperator]
  exact if_neg none

/-- A verb is expanded. -/
theorem referencePart_verb (side : Side) (operand : Json) :
    referencePart below field reference side.verb.name operand =
      (fun inner => .own [.set side.operator.target inner]) <$>
        expand below.value field side.operator reference operand := by
  cases side <;> rfl

theorem referencePart_operator {operator : Operator} (ne : operator ≠ .presence) (operand : Json) :
    referencePart below field reference operator.name operand =
      pure (.own [.set operator.target operand]) := by
  rw [referencePart, ofName?_operator_name ne, Operator.ofName?_name]

/-- A branch is lowered as a filter. -/
theorem referencePart_branch (side : Side) (operand : Json) :
    referencePart below field reference side.branch operand =
      (fun lowered => .own [.set side.branch lowered]) <$>
        lowerFor below.value reference operand := by
  cases side <;> rfl

/-- Any other condition is dropped. -/
theorem referencePart_other {name : String} (noVerb : RelationVerb.ofName? name = none)
    (noOperator : Operator.ofName? name = none) (noBranch : ∀ side : Side, name ≠ side.branch)
    (operand : Json) :
    referencePart below field reference name operand = (do
      Run.emit (.keyDropped name field)
      return .own []) := by
  have none : ¬(name = whereKey ∨ name = notWhereKey) := by
    rintro (eq | eq)
    · exact noBranch .matching eq
    · exact noBranch .notMatching eq
  rw [referencePart, noVerb, noOperator]
  exact if_neg none

/-- A condition whose operand is no filter gives its part. -/
theorem result_referencePart_of_not_takesFilter {name : String} (no : ¬ TakesFilter name)
    (operand lowered : Json) :
    (referencePart below field reference name operand).result =
      .ok (partOf reference name operand lowered) := by
  cases Kind.of name with
  | presence => rfl
  | verb side => exact absurd ⟨side, .inl rfl⟩ no
  | operator operator ne =>
    rw [partOf_operator reference ne, referencePart_operator ne, Run.result_pure]
  | branch side => exact absurd ⟨side, .inr rfl⟩ no
  | other noVerb noOperator noBranch =>
    rw [partOf_other reference noVerb noOperator noBranch,
      referencePart_other noVerb noOperator noBranch]
    rfl

/-- A condition whose operand is a filter gives its part if the filter has a query. -/
theorem result_referencePart_of_takesFilter {name : String} (takes : TakesFilter name)
    (operand : Json) :
    (referencePart below field reference name operand).result =
      partOf reference name operand <$> (lowerFor below.value reference operand).result := by
  obtain ⟨side, rfl | rfl⟩ := takes
  · rw [referencePart_verb, Run.result_map, result_expand, Functor.map_map]
    exact congrArg (· <$> _) (funext fun lowered => (partOf_verb ..).symm)
  · rw [referencePart_branch, Run.result_map]
    exact congrArg (· <$> _) (funext fun lowered => (partOf_branch ..).symm)

/-- A condition that is lowered with success gives the part of some query of its operand. -/
theorem exists_partOf_of_referencePart {name : String} {operand : Json} {found : Part}
    (h : (referencePart below field reference name operand).result = .ok found) :
    ∃ lowered, found = partOf reference name operand lowered := by
  by_cases takes : TakesFilter name
  · rw [result_referencePart_of_takesFilter takes] at h
    obtain ⟨lowered, -, rfl⟩ := Except.map_eq_ok_iff.mp h
    exact ⟨lowered, rfl⟩
  · rw [result_referencePart_of_not_takesFilter takes operand operand] at h
    exact ⟨operand, (Except.ok.inj h).symm⟩

/-- **Keys.** The name of a condition tells the key that it writes. -/
theorem key_of_partOf {name : String} {operand lowered : Json} {edit : Edit}
    (mem : edit ∈ (partOf reference name operand lowered).ownEdits) :
    (∃ side : Side, name = side.verb.name ∧ edit.key = side.operator.target) ∨
      (∃ operator : Operator, operator ≠ .presence ∧ name = operator.name ∧
        edit.key = operator.target) ∨
      ∃ side : Side, name = side.branch ∧ edit.key = side.branch := by
  cases Kind.of name with
  | presence => cases mem
  | verb side =>
    rw [partOf_verb] at mem
    exact .inl ⟨side, rfl, congrArg Edit.key (List.mem_singleton.mp mem)⟩
  | operator operator ne =>
    rw [partOf_operator reference ne] at mem
    exact .inr (.inl ⟨operator, ne, rfl, congrArg Edit.key (List.mem_singleton.mp mem)⟩)
  | branch side =>
    rw [partOf_branch] at mem
    exact .inr (.inr ⟨side, rfl, congrArg Edit.key (List.mem_singleton.mp mem)⟩)
  | other noVerb noOperator noBranch =>
    rw [partOf_other reference noVerb noOperator noBranch] at mem
    cases mem

/-- Only `exists` is held back. -/
theorem presence?_partOf (reference : Field) (name : String) (operand lowered : Json) :
    (partOf reference name operand lowered).presence? =
      if name = RelationVerb.presence.name then some operand else none := by
  cases Kind.of name with
  | presence => rfl
  | verb side => cases side <;> rfl
  | operator operator ne =>
    have different : operator.name ≠ RelationVerb.presence.name := by
      intro eq
      have found := ofName?_operator_name ne
      rw [eq, RelationVerb.ofName?_name] at found
      cases found
    rw [partOf_operator reference ne, if_neg different]
    rfl
  | branch side => cases side <;> rfl
  | other noVerb noOperator noBranch =>
    have different : name ≠ RelationVerb.presence.name := by
      rintro rfl
      rw [RelationVerb.ofName?_name] at noVerb
      cases noVerb
    rw [partOf_other reference noVerb noOperator noBranch, if_neg different]
    rfl

end Parts

end Lowering

end FilterQuery
