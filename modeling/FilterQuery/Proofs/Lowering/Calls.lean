import FilterQuery.Proofs.Lowering.References.Parts
import FilterQuery.Proofs.Run.Events
import Mathlib.Logic.Relation

/-!
# Calls

To lower a filter is to lower filters, the conditions of fields, and single conditions: each is a
`Call`, and makes other calls in turn (`Calls`). A call is made if everything before it has
succeeded, whether or not the lowering succeeds in the end.

What a call reports on its own is known outright (`Reports`), and every event of a lowering is
reported by one of its calls (`mem_events_lower_iff`). The proof is a step for each kind of call
(`Call.mem_events_iff`), and an induction on the rank of calls.
-/

namespace FilterQuery

namespace Lowering

/-- **Calls.** What is lowered on the way, with the levels that are left. -/
inductive Call
  /-- A filter for a class. -/
  | filter (levels : Nat) (cls : String) (filter : Object)
  /-- The conditions of a field of a class, which go to a key. -/
  | field (levels : Nat) (cls field key : String) (operands : Object)
  /-- One condition of a field of a class, with the levels below. -/
  | condition (levels : Nat) (cls field name : String) (operand : Json)

/-- The events of a call. -/
def Call.events (cx : Context) : Call → List Event
  | .filter levels cls input => (filterAt cx levels cls input).events
  | .field levels cls name key operands => (fieldAt cx levels cls name key operands).events
  | .condition levels cls around name operand =>
    (part cx (belowAt cx levels) cls around name operand).events

/-- What decreases from call to call: a condition is between the levels that are left around it and
those that are left below. -/
def Call.rank : Call → Nat
  | .filter levels _ _ => 2 * levels
  | .field levels _ _ _ _ => 2 * levels
  | .condition levels _ _ _ _ => 2 * levels + 1

/-- The runs for the conditions of a field. -/
def partRuns (cx : Context) (below : Below) (cls field : String) (entries : List (String × Json)) :
    Run (List Part) :=
  entries.mapM fun entry => part cx below cls field entry.1 entry.2

section Reaching

variable (cx : Context) (levels : Nat)

/-- The lowering of a filter gets as far as an entry. -/
def ReachesEntry (cls : String) (filter : Object) (key : String) (value : Json) : Prop :=
  Run.Reaches (fun entry : String × Json => entryStep (belowAt cx levels) cls entry.1 entry.2)
    filter.toList (key, value)

/-- The lowering of a field gets as far as a condition. -/
def ReachesCondition (cls field : String) (operands : Object) (name : String) (operand : Json) :
    Prop :=
  ∃ entries, (conditions cx cls field operands).result = .ok entries ∧
    Run.Reaches (fun entry : String × Json =>
      part cx (belowAt cx levels) cls field entry.1 entry.2) entries (name, operand)

/-- The lowering of a field gets as far as all of its conditions, with their parts. -/
def Gathers (cls field : String) (operands : Object) (parts : List Part) : Prop :=
  ∃ entries, (conditions cx cls field operands).result = .ok entries ∧
    (partRuns cx (belowAt cx levels) cls field entries).result = .ok parts

end Reaching

/-- **Nested calls.** One call makes another. -/
inductive Calls (cx : Context) : Call → Call → Prop
  /-- A filter lowers the branches of its combinators. -/
  | branch {levels : Nat} {cls key : String} {filter branch : Object} {items : List Json}
    {combinator : Combinator} (entry : ReachesEntry cx levels cls filter key (.arr items))
    (is : Combinator.ofName? key = some combinator)
    (item : Run.Reaches ((belowAt cx levels).value cls) items (.obj branch)) :
    Calls cx (.filter (levels + 1) cls filter) (.filter levels cls branch)
  /-- A filter lowers its fields. -/
  | entry {levels : Nat} {cls key : String} {filter operands : Object}
    (entry : ReachesEntry cx levels cls filter key (.obj operands))
    (noName : Combinator.ofName? key = none) :
    Calls cx (.filter (levels + 1) cls filter) (.field levels cls key key operands)
  /-- A field lowers its conditions. -/
  | condition {levels : Nat} {cls field key name : String} {operands : Object} {operand : Json}
    (reached : ReachesCondition cx levels cls field operands name operand) :
    Calls cx (.field (levels + 1) cls field key operands)
      (.condition levels cls field name operand)
  /-- A condition of a reference lowers a filter for the class that the reference leads to. -/
  | referred {levels : Nat} {cls target field name : String} {filter : Object} {reference : Field}
    (noPair : pairUnder? field (.ofJson (.obj filter)) = none)
    (refers : cx.schema.reference? cls field = some reference) (takes : TakesFilter name)
    (leads : reference.targetClass = some target) :
    Calls cx (.condition levels cls field name (.obj filter)) (.filter levels target filter)
  /-- A condition with the key of a nested filter lowers it for the same class. -/
  | nested {levels : Nat} {cls field : String} {operand : Json} {filter : Object}
    (noPair : pairUnder? field (.ofJson operand) = none)
    (plain : cx.schema.reference? cls field = none)
    (encoded : Geo.encode (Operator.ofName? whereKey) (.ofJson operand) = .obj filter) :
    Calls cx (.condition levels cls field whereKey operand) (.filter levels cls filter)
  /-- A condition with conditions in turn lowers them as those of a field. -/
  | deeper {levels : Nat} {cls field name : String} {operand : Json} {operands : Object}
    (noPair : pairUnder? field (.ofJson operand) = none)
    (plain : cx.schema.reference? cls field = none) (noFilter : name ≠ whereKey)
    (encoded : Geo.encode (Operator.ofName? name) (.ofJson operand) = .obj operands) :
    Calls cx (.condition levels cls field name operand)
      (.field levels cls name (targetKey name) operands)

/-- **Reports.** What a call reports on its own. -/
inductive Reports (cx : Context) : Call → Event → Prop
  /-- The operand of a combinator is no list. -/
  | kept {levels : Nat} {cls key : String} {filter : Object} {value : Json}
    {combinator : Combinator} (entry : ReachesEntry cx levels cls filter key value)
    (is : Combinator.ofName? key = some combinator) (noList : ∀ items, value ≠ .arr items) :
    Reports cx (.filter (levels + 1) cls filter) (.branchesKept combinator)
  /-- A field begins. -/
  | entered {levels : Nat} {cls field key : String} {operands : Object} :
    Reports cx (.field (levels + 1) cls field key operands) (.fieldEntered field cls)
  /-- Identifiers are replaced. -/
  | identifiers {levels : Nat} {cls field key : String} {operands : Object} {event : Event}
    (mem : event ∈ (conditions cx cls field operands).events) :
    Reports cx (.field (levels + 1) cls field key operands) event
  /-- The verb `exists` is added. -/
  | assembled {levels : Nat} {cls field key : String} {operands : Object} {parts : List Part}
    {event : Event} (gathers : Gathers cx levels cls field operands parts)
    (mem : event ∈ (assemble cx cls field parts).events) :
    Reports cx (.field (levels + 1) cls field key operands) event
  /-- A field with pairs is dropped. -/
  | dropped {levels : Nat} {cls field key : String} {operands : Object} {parts : List Part}
    {lowered : Object} (gathers : Gathers cx levels cls field operands parts)
    (given : (assemble cx cls field parts).result = .ok lowered)
    (some : parts.flatMap Part.dottedEdits ≠ []) :
    Reports cx (.field (levels + 1) cls field key operands) (.fieldDropped field)
  /-- A pair moves to its dotted path. -/
  | flattened {levels : Nat} {cls field name : String} {operand : Json} {pair : PathPair}
    (is : pairUnder? field (.ofJson operand) = some pair) :
    Reports cx (.condition levels cls field name operand)
      (.pathFlattened (targetKey name) (field ++ "." ++ pair.path))
  /-- A verb becomes a subquery on a class. -/
  | expanded {levels : Nat} {cls target field : String} {operand : Json} {reference : Field}
    (noPair : pairUnder? field (.ofJson operand) = none)
    (refers : cx.schema.reference? cls field = some reference) (side : Side)
    (leads : reference.targetClass = some target) :
    Reports cx (.condition levels cls field side.verb.name operand)
      (.subqueryExpanded field side.operator target)
  /-- A verb becomes a subquery without a class. -/
  | unscoped {levels : Nat} {cls field : String} {operand : Json} {reference : Field}
    (noPair : pairUnder? field (.ofJson operand) = none)
    (refers : cx.schema.reference? cls field = some reference) (side : Side)
    (unknown : reference.targetClass = none) :
    Reports cx (.condition levels cls field side.verb.name operand) (.subqueryUnscoped field)
  /-- A key of a reference means nothing. -/
  | keyDropped {levels : Nat} {cls field name : String} {operand : Json} {reference : Field}
    (noPair : pairUnder? field (.ofJson operand) = none)
    (refers : cx.schema.reference? cls field = some reference)
    (noVerb : RelationVerb.ofName? name = none) (noOperator : Operator.ofName? name = none)
    (noBranch : ∀ side : Side, name ≠ side.branch) :
    Reports cx (.condition levels cls field name operand) (.keyDropped name field)

variable {cx : Context} {below : Below} {levels : Nat} {cls field key name : String}
  {filter operands : Object} {operand value : Json} {reference : Field} {event : Event}

theorem Calls.rank_lt {call inner : Call} (calls : Calls cx call inner) :
    inner.rank < call.rank := by
  cases calls <;> simp only [Call.rank] <;> omega

/-! ### Filters -/

theorem mem_events_value :
    event ∈ (below.value cls value).events ↔
      ∃ filter, value = .obj filter ∧ event ∈ (below.filter cls filter).events := by
  cases value with
  | obj filter => simp [Below.value, Run.events_map]
  | _ => simp [Below.value]

/-- The events of an entry are those of the branches of a combinator, or those of a field. -/
theorem mem_events_entryStep :
    event ∈ (entryStep below cls key value).events ↔
      (∃ combinator, Combinator.ofName? key = some combinator ∧
        ((∃ items, value = .arr items ∧ event ∈ (items.mapM (below.value cls)).events) ∨
          (∀ items, value ≠ .arr items) ∧ event = .branchesKept combinator)) ∨
      (Combinator.ofName? key = none ∧
        ∃ operands, value = .obj operands ∧ event ∈ (below.field cls key key operands).events) := by
  rcases named : Combinator.ofName? key with _ | combinator
  · cases value <;> simp [entryStep, named]
  · cases value <;>
      simp [entryStep, named, branches, Run.mem_events_emit, Run.events_map]

/-- The events of the lowering of a filter are those that it reports and those of its calls. -/
theorem mem_events_filter :
    event ∈ (Call.filter levels cls filter).events cx ↔
      Reports cx (.filter levels cls filter) event ∨
        ∃ inner, Calls cx (.filter levels cls filter) inner ∧ event ∈ inner.events cx := by
  cases levels with
  | zero =>
    refine iff_of_false List.not_mem_nil ?_
    rintro (⟨⟨⟩⟩ | ⟨inner, ⟨⟩, mem⟩)
  | succ levels =>
    have step : event ∈ (Call.filter (levels + 1) cls filter).events cx ↔
        ∃ key value, ReachesEntry cx levels cls filter key value ∧
          event ∈ (entryStep (belowAt cx levels) cls key value).events := by
      rw [Call.events, filterAt_succ, filterStep, ← map_eq_pure_bind, Run.events_map,
        Run.mem_events_mapM, Prod.exists]
      rfl
    rw [step]
    simp only [mem_events_entryStep, Run.mem_events_mapM, mem_events_value]
    constructor
    · rintro ⟨key, value, entry,
        ⟨combinator, is, ⟨items, rfl, _, item, branch, rfl, mem⟩ | ⟨noList, rfl⟩⟩ |
          ⟨noName, operands, rfl, mem⟩⟩
      · exact .inr ⟨_, .branch entry is item, mem⟩
      · exact .inl (.kept entry is noList)
      · exact .inr ⟨_, .entry entry noName, mem⟩
    · rintro (⟨entry, is, noList⟩ | ⟨inner, calls, mem⟩)
      · exact ⟨_, _, entry, .inl ⟨_, is, .inr ⟨noList, rfl⟩⟩⟩
      · cases calls with
        | branch entry is item =>
          exact ⟨_, _, entry, .inl ⟨_, is, .inl ⟨_, rfl, _, item, _, rfl, mem⟩⟩⟩
        | entry entry noName => exact ⟨_, _, entry, .inr ⟨noName, _, rfl, mem⟩⟩

/-! ### Fields -/

theorem level_of_mem_localId {codec : Codec} {policy : IdentifierPolicy} {encoded : String}
    (mem : event ∈ (localId codec policy cls encoded).events) : event.level = .trace := by
  unfold localId at mem
  split at mem
  · split at mem
    · cases mem
    · obtain rfl | none := Run.mem_events_emit_bind.mp mem
      · rfl
      · cases none
  · split at mem
    · obtain rfl | none := Run.mem_events_emit_bind.mp mem
      · rfl
      · cases none
    · cases mem

theorem level_of_mem_localOperand {codec : Codec} {policy : IdentifierPolicy}
    (mem : event ∈ (localOperand codec policy cls operand).events) : event.level = .trace := by
  cases operand with
  | str encoded =>
    rw [localOperand, Run.events_map] at mem
    exact level_of_mem_localId mem
  | arr items =>
    rw [localOperand, Run.events_map] at mem
    obtain ⟨item, -, mem⟩ := Run.mem_events_mapM.mp mem
    cases item with
    | str encoded =>
      rw [localItem, Run.events_map] at mem
      exact level_of_mem_localId mem
    | _ => cases mem
  | _ => cases mem

/-- To replace identifiers is reported once, and each that is kept is traced. -/
theorem eq_or_level_of_mem_conditions (mem : event ∈ (conditions cx cls field operands).events) :
    event = .idMoved cls ∨ event.level = .trace := by
  unfold conditions at mem
  split at mem
  · refine (Run.mem_events_emit_bind.mp mem).imp_right fun mem => ?_
    obtain ⟨condition, -, mem⟩ := Run.mem_events_mapM.mp mem
    rw [← map_eq_pure_bind, Run.events_map] at mem
    exact level_of_mem_localOperand mem
  · cases mem

/-- To add the verb `exists` is reported if it joins a branch. -/
theorem exists_of_mem_assemble {parts : List Part}
    (mem : event ∈ (assemble cx cls field parts).events) :
    ∃ branch, event = .presenceMerged field branch := by
  unfold assemble at mem
  dsimp only at mem
  split at mem
  · unfold applyPresence at mem
    split at mem
    · cases mem
    · dsimp only at mem
      split at mem
      · obtain rfl | none := Run.mem_events_emit_bind.mp mem
        · exact ⟨_, rfl⟩
        · cases none
      · cases mem
  · cases mem

/-- The events of a field are that it begins, those of each stage that is reached, and that it is
dropped. -/
theorem mem_events_fieldStep :
    event ∈ (fieldStep cx below cls field key operands).events ↔
      event = .fieldEntered field cls ∨ event ∈ (conditions cx cls field operands).events ∨
        ∃ entries, (conditions cx cls field operands).result = .ok entries ∧
          (event ∈ (partRuns cx below cls field entries).events ∨
            ∃ parts, (partRuns cx below cls field entries).result = .ok parts ∧
              (event ∈ (assemble cx cls field parts).events ∨
                ∃ lowered, (assemble cx cls field parts).result = .ok lowered ∧
                  parts.flatMap Part.dottedEdits ≠ [] ∧ event = .fieldDropped field)) := by
  rw [fieldStep, Run.mem_events_emit_bind, Run.mem_events_bind]
  refine or_congr_right (or_congr_right (exists_congr fun entries => and_congr_right fun _ => ?_))
  rw [Run.mem_events_bind]
  refine or_congr_right (exists_congr fun parts => and_congr_right fun _ => ?_)
  rw [Run.mem_events_bind]
  refine or_congr_right (exists_congr fun lowered => and_congr_right fun _ => ?_)
  split
  · next none => exact iff_of_false List.not_mem_nil fun some => some.1 none
  · next dotted some =>
    rw [Run.mem_events_emit_bind]
    exact ⟨fun mem => ⟨some, mem.resolve_right List.not_mem_nil⟩, fun mem => .inl mem.2⟩

/-- The events of the lowering of a field are those that it reports and those of its conditions. -/
theorem mem_events_field :
    event ∈ (Call.field levels cls field key operands).events cx ↔
      Reports cx (.field levels cls field key operands) event ∨
        ∃ inner, Calls cx (.field levels cls field key operands) inner ∧
          event ∈ inner.events cx := by
  cases levels with
  | zero =>
    refine iff_of_false List.not_mem_nil ?_
    rintro (⟨⟨⟩⟩ | ⟨inner, ⟨⟩, mem⟩)
  | succ levels =>
    rw [Call.events, fieldAt_succ, mem_events_fieldStep]
    constructor
    · rintro (rfl | mem | ⟨entries, given, mem |
        ⟨parts, gathered, mem | ⟨lowered, built, some, rfl⟩⟩⟩)
      · exact .inl .entered
      · exact .inl (.identifiers mem)
      · obtain ⟨⟨name, operand⟩, reached, inner⟩ := Run.mem_events_mapM.mp mem
        exact .inr ⟨_, .condition ⟨entries, given, reached⟩, inner⟩
      · exact .inl (.assembled ⟨entries, given, gathered⟩ mem)
      · exact .inl (.dropped ⟨entries, given, gathered⟩ built some)
    · rintro (reports | ⟨inner, calls, mem⟩)
      · cases reports with
        | entered => exact .inl rfl
        | identifiers mem => exact .inr (.inl mem)
        | assembled gathers mem =>
          obtain ⟨entries, given, gathered⟩ := gathers
          exact .inr (.inr ⟨entries, given, .inr ⟨_, gathered, .inl mem⟩⟩)
        | dropped gathers built some =>
          obtain ⟨entries, given, gathered⟩ := gathers
          exact .inr (.inr ⟨entries, given, .inr ⟨_, gathered, .inr ⟨_, built, some, rfl⟩⟩⟩)
      · cases calls with
        | condition reached =>
          obtain ⟨entries, given, reached⟩ := reached
          exact .inr (.inr ⟨entries, given, .inl (Run.mem_events_mapM.mpr ⟨_, reached, mem⟩)⟩)

/-! ### Conditions -/

theorem mem_events_lowerFor :
    event ∈ (lowerFor below.value reference operand).events ↔
      ∃ target filter, reference.targetClass = some target ∧ operand = .obj filter ∧
        event ∈ (below.filter target filter).events := by
  rw [lowerFor]
  rcases reference.targetClass with _ | target
  · simp
  · simp [mem_events_value]

/-- The events of a verb are that of its subquery and those of its filter. -/
theorem mem_events_expand {operator : Operator} :
    event ∈ (expand below.value field operator reference operand).events ↔
      (∃ target, reference.targetClass = some target ∧
          event = .subqueryExpanded field operator target) ∨
        (reference.targetClass = none ∧ event = .subqueryUnscoped field) ∨
          event ∈ (lowerFor below.value reference operand).events := by
  rw [expand, Run.mem_events_emit_bind, ← map_eq_pure_bind, Run.events_map, ← or_assoc]
  refine or_congr_left ?_
  rcases reference.targetClass with _ | target
  · simp
  · simp

/-- The events of a plain condition are those of the filter or of the conditions that it holds. -/
theorem mem_events_plainPart {operand : Operand} :
    event ∈ (plainPart below cls name operand).events ↔
      ∃ nested, Geo.encode (Operator.ofName? name) operand = .obj nested ∧
        ((name = whereKey ∧ event ∈ (below.filter cls nested).events) ∨
          name ≠ whereKey ∧ event ∈ (below.field cls name (targetKey name) nested).events) := by
  unfold plainPart
  dsimp only
  split
  · next nested encoded =>
    split
    · next isWhere =>
      subst isWhere
      simp [encoded, Run.events_map]
    · next noFilter => simp [encoded, noFilter, Run.events_map]
  · next noObject =>
    refine iff_of_false List.not_mem_nil ?_
    rintro ⟨nested, encoded, -⟩
    exact noObject nested encoded

/-- A pair only reports that it moves. -/
theorem events_of_pair {pair : PathPair} (is : pairUnder? field (.ofJson operand) = some pair) :
    (Call.condition levels cls field name operand).events cx =
      [.pathFlattened (targetKey name) (field ++ "." ++ pair.path)] := by
  rw [Call.events, part, is]
  rfl

theorem events_of_reference (noPair : pairUnder? field (.ofJson operand) = none)
    (refers : cx.schema.reference? cls field = some reference) :
    (Call.condition levels cls field name operand).events cx =
      (referencePart (belowAt cx levels) field reference name operand).events := by
  rw [Call.events, part_of_reference noPair refers]

theorem events_of_plain (noPair : pairUnder? field (.ofJson operand) = none)
    (plain : cx.schema.reference? cls field = none) :
    (Call.condition levels cls field name operand).events cx =
      (plainPart (belowAt cx levels) cls name (.ofJson operand)).events := by
  rw [Call.events, part_of_plain noPair plain]

/-- The events of a condition of a reference, by the kind of its name. -/
theorem reports_or_calls_of_reference (noPair : pairUnder? field (.ofJson operand) = none)
    (refers : cx.schema.reference? cls field = some reference)
    (mem : event ∈ (referencePart (belowAt cx levels) field reference name operand).events) :
    Reports cx (.condition levels cls field name operand) event ∨
      ∃ inner, Calls cx (.condition levels cls field name operand) inner ∧
        event ∈ inner.events cx := by
  have filter (takes : TakesFilter name)
      (mem : event ∈ (lowerFor (belowAt cx levels).value reference operand).events) :
      ∃ inner, Calls cx (.condition levels cls field name operand) inner ∧
        event ∈ inner.events cx := by
    obtain ⟨target, filter, leads, rfl, inner⟩ := mem_events_lowerFor.mp mem
    exact ⟨_, .referred noPair refers takes leads, inner⟩
  cases Kind.of name with
  | presence => cases mem
  | verb side =>
    rw [referencePart_verb, Run.events_map, mem_events_expand] at mem
    obtain ⟨target, leads, rfl⟩ | ⟨unknown, rfl⟩ | mem := mem
    · exact .inl (.expanded noPair refers side leads)
    · exact .inl (.unscoped noPair refers side unknown)
    · exact .inr (filter ⟨side, .inl rfl⟩ mem)
  | operator operator ne =>
    rw [referencePart_operator ne] at mem
    cases mem
  | branch side =>
    rw [referencePart_branch, Run.events_map] at mem
    exact .inr (filter ⟨side, .inr rfl⟩ mem)
  | other noVerb noOperator noBranch =>
    rw [referencePart_other noVerb noOperator noBranch, Run.mem_events_emit_bind] at mem
    obtain rfl | none := mem
    · exact .inl (.keyDropped noPair refers noVerb noOperator noBranch)
    · cases none

/-- The events of the lowering of a condition are those that it reports and those of its calls. -/
theorem mem_events_condition :
    event ∈ (Call.condition levels cls field name operand).events cx ↔
      Reports cx (.condition levels cls field name operand) event ∨
        ∃ inner, Calls cx (.condition levels cls field name operand) inner ∧
          event ∈ inner.events cx := by
  constructor
  · intro mem
    rcases noPair : pairUnder? field (.ofJson operand) with _ | pair
    · rcases refers : cx.schema.reference? cls field with _ | reference
      · rw [events_of_plain noPair refers] at mem
        obtain ⟨nested, encoded, ⟨rfl, inner⟩ | ⟨noFilter, inner⟩⟩ := mem_events_plainPart.mp mem
        · exact .inr ⟨_, .nested noPair refers encoded, inner⟩
        · exact .inr ⟨_, .deeper noPair refers noFilter encoded, inner⟩
      · rw [events_of_reference noPair refers] at mem
        exact reports_or_calls_of_reference noPair refers mem
    · rw [events_of_pair noPair, List.mem_singleton] at mem
      exact .inl (mem ▸ .flattened noPair)
  · rintro (reports | ⟨inner, calls, mem⟩)
    · cases reports with
      | flattened is =>
        rw [events_of_pair is]
        exact List.mem_singleton_self _
      | expanded noPair refers side leads =>
        rw [events_of_reference noPair refers, referencePart_verb, Run.events_map,
          mem_events_expand]
        exact .inl ⟨_, leads, rfl⟩
      | unscoped noPair refers side unknown =>
        rw [events_of_reference noPair refers, referencePart_verb, Run.events_map,
          mem_events_expand]
        exact .inr (.inl ⟨unknown, rfl⟩)
      | keyDropped noPair refers noVerb noOperator noBranch =>
        rw [events_of_reference noPair refers, referencePart_other noVerb noOperator noBranch,
          Run.mem_events_emit_bind]
        exact .inl rfl
    · cases calls with
      | @referred _ _ _ _ _ filter reference noPair refers takes leads =>
        have inner : event ∈ (lowerFor (belowAt cx levels).value reference (.obj filter)).events :=
          mem_events_lowerFor.mpr ⟨_, _, leads, rfl, mem⟩
        rw [events_of_reference noPair refers]
        obtain ⟨side, rfl | rfl⟩ := takes
        · rw [referencePart_verb, Run.events_map, mem_events_expand]
          exact .inr (.inr inner)
        · rwa [referencePart_branch, Run.events_map]
      | nested noPair plain encoded =>
        rw [events_of_plain noPair plain]
        exact mem_events_plainPart.mpr ⟨_, encoded, .inl ⟨rfl, mem⟩⟩
      | deeper noPair plain noFilter encoded =>
        rw [events_of_plain noPair plain]
        exact mem_events_plainPart.mpr ⟨_, encoded, .inr ⟨noFilter, mem⟩⟩

/-! ### Lowerings -/

/-- **Steps.** The events of a call are those that it reports and those of its calls. -/
theorem Call.mem_events_iff {call : Call} :
    event ∈ call.events cx ↔
      Reports cx call event ∨ ∃ inner, Calls cx call inner ∧ event ∈ inner.events cx := by
  cases call with
  | filter levels cls input => exact mem_events_filter
  | field levels cls name key operands => exact mem_events_field
  | condition levels cls around name operand => exact mem_events_condition

/-- **Calls of calls.** The events of a call are those that it and the calls from it on report. -/
theorem Call.mem_events_iff_exists {call : Call} :
    event ∈ call.events cx ↔
      ∃ last, Relation.ReflTransGen (Calls cx) call last ∧ Reports cx last event := by
  constructor
  · intro mem
    -- Calls go down in rank, so there is a last one.
    induction rank : call.rank using Nat.strongRecOn generalizing call with
    | ind rank' ih =>
      obtain reports | ⟨inner, calls, mem⟩ := mem_events_iff.mp mem
      · exact ⟨call, .refl, reports⟩
      · obtain ⟨last, on, reports⟩ := ih _ (rank ▸ calls.rank_lt) mem rfl
        exact ⟨last, .head calls on, reports⟩
  · rintro ⟨last, on, reports⟩
    induction on using Relation.ReflTransGen.head_induction_on with
    | refl => exact mem_events_iff.mpr (.inl reports)
    | head calls _ ih => exact mem_events_iff.mpr (.inr ⟨_, calls, ih⟩)

/-- A call is made when an input is lowered. -/
def Makes (cx : Context) (cls : String) (input : Json) (call : Call) : Prop :=
  ∃ filter, input = .obj filter ∧
    Relation.ReflTransGen (Calls cx) (.filter cx.limit cls filter) call

/-- **Events.** The events of a lowering are what its calls report. -/
theorem mem_events_lower_iff {input : Json} :
    event ∈ (lower cx cls input).events ↔
      ∃ call, Makes cx cls input call ∧ Reports cx call event := by
  rw [lower, mem_events_value]
  constructor
  · rintro ⟨filter, rfl, mem⟩
    have whole : event ∈ (Call.filter cx.limit cls filter).events cx := mem
    obtain ⟨last, on, reports⟩ := Call.mem_events_iff_exists.mp whole
    exact ⟨last, ⟨filter, rfl, on⟩, reports⟩
  · rintro ⟨call, ⟨filter, rfl, on⟩, reports⟩
    exact ⟨filter, rfl, Call.mem_events_iff_exists.mpr ⟨call, on, reports⟩⟩

end Lowering

end FilterQuery
