import FilterQuery.Proofs.Lowering.Combinators
import FilterQuery.Proofs.Lowering.Pairs
import FilterQuery.Proofs.Lowering.References.Query

/-!
# Dotted paths

A pair among the conditions of a field is a condition on a path inside the field, and goes to the
dotted path of the field and the path of the pair. There it meets the pairs of other fields with the
same dotted path, and the entry of the filter whose key is that dotted path. All of them merge their
conditions into what they find, so an operator that is stated once keeps its operand
(`Edit.holds_build_of_merges`).

An entry with a literal does not merge: it is written over what it finds. Its key is greater than
that of any field whose pairs it meets (`lt_dotted`), so all of them are lost
(`lower_dotted`, `lower_notWork_literal`).
-/

namespace FilterQuery

/-- A target of an operator is no dotted path. -/
theorem Operator.target_ne_dotted (operator : Operator) (field path : String) :
    operator.target ≠ field ++ "." ++ path :=
  Lowering.ne_dotted (by cases operator <;> decide) field path

/-- A target of an operator is not the key of the conditions on local ids. -/
theorem Operator.target_ne_objectIdKey (operator : Operator) :
    operator.target ≠ Lowering.objectIdKey := by
  cases operator <;> decide

/-- A dotted path is no combinator. -/
theorem Combinator.ofName?_dotted (field path : String) :
    ofName? (field ++ "." ++ path) = none := by
  rcases found : ofName? (field ++ "." ++ path) with _ | combinator
  · rfl
  · exact absurd (name_of_ofName? found)
      (Lowering.ne_dotted (by cases combinator <;> decide) field path)

namespace Lowering

/-- A dotted path comes after its field. -/
theorem lt_dotted (field path : String) : field < field ++ "." ++ path := by
  have longer : field.toList ++ [] < field.toList ++ '.' :: path.toList :=
    List.append_left_lt (List.nil_lt_cons _ _)
  rw [String.lt_iff]
  simpa using longer

/-- A key before a field is none of its dotted paths. -/
theorem ne_dotted_of_lt {key field : String} (lt : key < field) (path : String) :
    key ≠ field ++ "." ++ path := by
  rintro rfl
  exact String.lt_asymm lt (lt_dotted field path)

theorem isIdField_dotted (cls field path : String) :
    isIdField cls (field ++ "." ++ path) = false :=
  isIdField_of_ne (ne_dotted (by decide) field path).symm cls

/-- A key that is sent to a dotted path is that path. -/
theorem eq_of_outputKey_dotted {cls key field path : String}
    (h : outputKey cls key key = field ++ "." ++ path) : key = field ++ "." ++ path := by
  rw [outputKey] at h
  split at h
  · exact absurd h (ne_dotted (by decide) field path)
  · exact h

variable {cx : Context} {levels : Nat} {cls field key : String}
  {operands filter : Object} {operator : Operator}

/-! ### Operators of a field -/

/-- The key under which a condition of a reference stands. A verb stands under the operator that it
becomes. The verb `exists` of a relation stands under the branch whose filter it joins, or else
under the operator of a subquery. -/
def referenceKey (reference : Field) (conditions : Object) (name : String) (operand : Json) :
    String :=
  match RelationVerb.ofName? name with
  | some .matching => Operator.inQuery.target
  | some .notMatching => Operator.notInQuery.target
  | some .presence =>
    if reference.type = .relation then
      if (Side.ofFlag operand).hasFilter conditions then (Side.ofFlag operand).branch
      else (Side.ofFlag operand).operator.target
    else Operator.presence.target
  | none => targetKey name

/-- **Condition keys.** The key under which a condition stands in the object of its field. -/
def conditionKey (schema : Schema) (cls field : String) (conditions : Object) (name : String)
    (operand : Json) : String :=
  match schema.reference? cls field with
  | some reference => referenceKey reference conditions name operand
  | none => targetKey name

theorem referenceKey_operator (reference : Field) (conditions : Object) (ne : operator ≠ .presence)
    (operand : Json) :
    referenceKey reference conditions operator.name operand = operator.target := by
  rw [referenceKey, ofName?_operator_name ne]
  exact targetKey_name operator

theorem referenceKey_verb (reference : Field) (conditions : Object) (side : Side) (operand : Json) :
    referenceKey reference conditions side.verb.name operand = side.operator.target := by
  cases side <;> rfl

/-- An operator in the query of a reference is there for a condition. -/
theorem ReferenceQuery.exists_referenceKey {reference : Field} {nested : Json → Json}
    {conditions query : Object} (members : ReferenceQuery reference nested conditions query)
    {value : Json} (member : query.get? operator.target = some value) :
    ∃ name operand, conditions.get? name = some operand ∧
      referenceKey reference conditions name operand = operator.target := by
  by_cases presence : operator = .presence
  · subst presence
    rw [members.presence] at member
    split at member
    · cases member
    · next pointer => exact ⟨_, value, member, if_neg pointer⟩
  by_cases ofSide : ∃ side : Side, operator = side.operator
  · obtain ⟨side, rfl⟩ := ofSide
    rw [members.subquery, Side.subquery?] at member
    split at member
    · next alone =>
      obtain ⟨flagged, noFilter⟩ := alone
      obtain ⟨flag, flagged⟩ := Option.isSome_iff_exists.mp flagged
      obtain ⟨given, isFor⟩ := Option.filter_eq_some_iff.mp flagged
      obtain ⟨relation, rfl⟩ := of_decide_eq_true isFor
      exact ⟨_, flag, given, (if_pos relation).trans (if_neg noFilter)⟩
    · rw [Side.explicit?, Option.or_eq_some_iff] at member
      rcases member with given | ⟨-, given⟩
      · exact ⟨_, value, given, referenceKey_operator reference conditions presence value⟩
      · obtain ⟨operand, given, -⟩ := Option.map_eq_some_iff.mp given
        exact ⟨_, operand, given, referenceKey_verb reference conditions side operand⟩
  · rw [members.operator operator presence fun side eq => ofSide ⟨side, eq⟩] at member
    exact ⟨_, value, member, referenceKey_operator reference conditions presence value⟩

/-- The edits of a plain condition of the object of its field change the key of the condition, that
of local ids, or dotted paths. -/
theorem targetKey_of_mem_ownEdits (plain : cx.schema.reference? cls field = none) {name : String}
    {operand : Json} {found : Part}
    (h : (part cx (belowAt cx levels) cls field name operand).result = .ok found) {edit : Edit}
    (mem : edit ∈ found.ownEdits) (own : edit.key = operator.target) :
    targetKey name = operator.target := by
  obtain ⟨pair, -, rfl⟩ | ⟨-, ⟨reference, known, -⟩ | ⟨-, given⟩⟩ := part_cases h
  · cases mem
  · cases plain.symm.trans known
  · cases plainPart_of_result given with
    | filter => rwa [List.mem_singleton.mp mem] at own
    | conditions _ _ hedits =>
      rcases key_of_fieldAt hedits edit mem with output | ⟨path, dotted⟩
      · rw [output, outputKey] at own
        split at own
        · exact absurd own.symm operator.target_ne_objectIdKey
        · exact own
      · exact absurd (own.symm.trans dotted) (operator.target_ne_dotted _ _)
    | literal => rwa [List.mem_singleton.mp mem] at own

/-- Replacing identifiers keeps the names of the conditions. -/
theorem exists_get?_of_mem_conditions {entries : List (String × Json)}
    (h : (conditions cx cls field operands).result = .ok entries) {entry : String × Json}
    (mem : entry ∈ entries) : ∃ operand, operands.get? entry.1 = some operand := by
  rw [yields_conditions cx cls field operands entries h] at mem
  obtain ⟨⟨name, operand⟩, given, rfl⟩ := List.mem_map.mp mem
  exact ⟨operand, Dict.mem_toList.mp given⟩

/-- **Operators of plain fields.** An operator in the object of a plain field without pairs is there
for a condition. -/
theorem exists_targetKey (plain : cx.schema.reference? cls field = none)
    (none : pathEdits field operands = []) {sent : String} {lowered : Object}
    (h : (fieldStep cx (belowAt cx levels) cls field key operands).result =
      .ok [.merge sent lowered])
    {value : Json} (member : lowered.get? operator.target = some value) :
    ∃ name operand, operands.get? name = some operand ∧ targetKey name = operator.target := by
  obtain ⟨some, -⟩ | ⟨-, entries, parts, built, hentries, hparts, hbuilt, eq⟩ :=
    edits_of_fieldStep h
  · exact absurd none some
  · obtain ⟨-, rfl⟩ := Edit.merge.inj (List.singleton_inj.mp eq)
    rw [assemble, plain] at hbuilt
    cases hbuilt
    obtain ⟨edit, mem, own⟩ := Edit.isSome_get?_build_iff.mp (Option.isSome_of_mem member)
    obtain ⟨found, mem, edits⟩ := List.mem_flatMap.mp mem
    rw [← Run.result_mapM] at hparts
    obtain ⟨entry, given, hfound⟩ := Run.exists_of_mem_mapM hparts found mem
    obtain ⟨operand, condition⟩ := exists_get?_of_mem_conditions hentries given
    exact ⟨entry.1, operand, condition, targetKey_of_mem_ownEdits plain hfound edits own⟩

/-- **Operators of fields.** An operator in the object of a field without pairs is there for a
condition. -/
theorem exists_conditionKey (named : field ≠ "") (notId : isIdField cls field = false)
    (none : pathEdits field operands = []) {lowered : Object}
    (h : (fieldStep cx (belowAt cx levels) cls field key operands).result =
      .ok [.merge key lowered])
    {value : Json} (member : lowered.get? operator.target = some value) :
    ∃ name operand, operands.get? name = some operand ∧
      conditionKey cx.schema cls field operands name operand = operator.target := by
  rcases known : cx.schema.reference? cls field with _ | reference
  · obtain ⟨name, operand, given, stands⟩ := exists_targetKey known none h member
    refine ⟨name, operand, given, ?_⟩
    rw [conditionKey, known]
    exact stands
  · obtain ⟨nested, query, -, members, eq⟩ := exists_referenceQuery_of_result_fieldStep known notId
      (unpaired_of_pathEdits named none) h
    cases eq
    obtain ⟨name, operand, given, stands⟩ := members.exists_referenceKey member
    refine ⟨name, operand, given, ?_⟩
    rw [conditionKey, known]
    exact stands

/-! ### Dotted paths of a filter -/

/-- **Statements.** The condition of a name under a key of a filter states an operator for a dotted
path: its operand is a pair that leads to the path, or the path is the key itself. -/
inductive States (schema : Schema) (cls : String) (filter : Object) (operator : Operator)
    (dotted : String) : (key name : String) → Prop
  /-- A pair leads to the path. -/
  | pair {key name : String} {conditions : Object} {operand : Json} {pair : PathPair}
    (noName : Combinator.ofName? key = none) (entry : filter.get? key = some (.obj conditions))
    (condition : conditions.get? name = some operand)
    (is : pairUnder? key (.ofJson operand) = some pair) (leads : key ++ "." ++ pair.path = dotted)
    (target : targetKey name = operator.target) : States schema cls filter operator dotted key name
  /-- The key is the path. -/
  | own {name : String} {conditions : Object} {operand : Json}
    (entry : filter.get? dotted = some (.obj conditions))
    (condition : conditions.get? name = some operand)
    (noPair : pairUnder? dotted (.ofJson operand) = none)
    (stands : conditionKey schema cls dotted conditions name operand = operator.target) :
    States schema cls filter operator dotted dotted name

section Paths

variable {conditions query : Object} {operand : Json} {pair : PathPair} {edits : List Edit}

/-- What a field becomes with success has the edits of its pairs. -/
theorem mem_of_entryStep (noName : Combinator.ofName? field = none)
    (condition : conditions.get? operator.name = some operand)
    (is : pairUnder? field (.ofJson operand) = some pair)
    (h : (entryStep (belowAt cx levels) cls field (.obj conditions)).result = .ok edits) :
    .merge (field ++ "." ++ pair.path) (.singleton operator.target pair.value) ∈ edits := by
  have mem : .merge (field ++ "." ++ pair.path) (.singleton operator.target pair.value) ∈
      pathEdits field conditions := by
    rw [mem_pathEdits, ← targetKey_name]
    exact ⟨operator.name, operand, pair, condition, is, rfl⟩
  rw [entryStep_obj noName] at h
  cases levels with
  | zero => cases h
  | succ levels =>
    obtain ⟨-, rfl⟩ | ⟨none, -⟩ := edits_of_fieldStep h
    · exact mem
    · rw [none] at mem
      cases mem

/-- Where a pair states an operator alone, every field of the filter merges what it puts under the
dotted path, and puts nothing else under the operator. -/
theorem merge_of_mem_fieldStep (entry : filter.get? field = some (.obj conditions))
    (condition : conditions.get? operator.name = some operand)
    (is : pairUnder? field (.ofJson operand) = some pair)
    (only : ∀ key name,
      States cx.schema cls filter operator (field ++ "." ++ pair.path) key name →
        key = field ∧ name = operator.name)
    {key : String} {operands : Object} (noName : Combinator.ofName? key = none)
    (found : filter.get? key = some (.obj operands))
    (h : (fieldStep cx (belowAt cx levels) cls key key operands).result = .ok edits) {edit : Edit}
    (mem : edit ∈ edits) (own : edit.key = field ++ "." ++ pair.path) :
    ∃ members, edit = .merge (field ++ "." ++ pair.path) members ∧
      ∀ value, members.get? operator.target = some value → value = pair.value := by
  obtain ⟨-, rfl⟩ | ⟨none, -, -, lowered, -, -, -, rfl⟩ := edits_of_fieldStep h
  · obtain ⟨name, operand', pair', given, is', rfl⟩ := mem_pathEdits.mp mem
    refine ⟨_, congrArg (Edit.merge · _) own, fun value member => ?_⟩
    rw [Dict.get?_singleton] at member
    split at member
    · next target =>
      -- This is the pair that states the operator.
      obtain ⟨rfl, rfl⟩ := only _ _ (.pair noName found given is' own target.symm)
      cases entry.symm.trans found
      cases condition.symm.trans given
      cases is.symm.trans is'
      exact (Option.some.inj member).symm
    · cases member
  · cases List.mem_singleton.mp mem
    refine ⟨lowered, congrArg (Edit.merge · _) own, fun value member => ?_⟩
    -- The key is the dotted path, and a condition under it would state the operator too.
    have sent : outputKey cls key key = field ++ "." ++ pair.path := own
    obtain rfl := eq_of_outputKey_dotted sent
    rw [sent] at h
    have named : field ++ "." ++ pair.path ≠ "" := (ne_dotted (by decide) _ _).symm
    obtain ⟨name, operand', given, stands⟩ :=
      exists_conditionKey named (isIdField_dotted cls field pair.path) none h member
    have noPair : pairUnder? (field ++ "." ++ pair.path) (.ofJson operand') = .none :=
      pairUnder?_eq_none (unpaired_of_pathEdits named none name operand' given) _
    obtain ⟨same, -⟩ := only _ _ (.own found given noPair stands)
    exact absurd (same ▸ lt_dotted field pair.path) (String.lt_irrefl _)

/-- The same holds of every entry of the filter, if it is no literal under the dotted path. -/
theorem merge_of_mem_entryStep (entry : filter.get? field = some (.obj conditions))
    (condition : conditions.get? operator.name = some operand)
    (is : pairUnder? field (.ofJson operand) = some pair)
    (only : ∀ key name,
      States cx.schema cls filter operator (field ++ "." ++ pair.path) key name →
        key = field ∧ name = operator.name)
    {key : String} {other : Json} (found : filter.get? key = some other)
    (object : key = field ++ "." ++ pair.path → other.isObject = true)
    (h : (entryStep (belowAt cx levels) cls key other).result = .ok edits) {edit : Edit}
    (mem : edit ∈ edits) (own : edit.key = field ++ "." ++ pair.path) :
    ∃ members, edit = .merge (field ++ "." ++ pair.path) members ∧
      ∀ value, members.get? operator.target = some value → value = pair.value := by
  rcases noName : Combinator.ofName? key with _ | combinator
  · cases other with
    | obj operands =>
      rw [entryStep_obj noName] at h
      cases levels with
      | zero => cases h
      | succ levels =>
        exact merge_of_mem_fieldStep entry condition is only noName found h mem own
    | _ =>
      rw [entryStep_literal noName rfl] at h
      cases h
      cases List.mem_singleton.mp mem
      exact absurd (object (eq_of_outputKey_dotted own)) Bool.false_ne_true
  · rcases key_of_entryStep h edit mem with ⟨combinator', -, target⟩ | ⟨none, -⟩
    · exact absurd (target.symm.trans own) (combinator'.target_ne_dotted _ _)
    · rw [noName] at none
      cases none

/-- **Conditions of pairs.** What a pair states alone for a dotted path stands there, if the filter
has no literal under that path. -/
theorem holds_of_pair (noName : Combinator.ofName? field = none)
    (entry : filter.get? field = some (.obj conditions))
    (condition : conditions.get? operator.name = some operand)
    (is : pairUnder? field (.ofJson operand) = some pair)
    (only : ∀ key name,
      States cx.schema cls filter operator (field ++ "." ++ pair.path) key name →
        key = field ∧ name = operator.name)
    (noLiteral : ∀ other, filter.get? (field ++ "." ++ pair.path) = some other →
      other.isObject = true)
    (h : (filterStep (belowAt cx levels) cls filter).result = .ok query) :
    Edit.Holds query (field ++ "." ++ pair.path) operator.target pair.value := by
  obtain ⟨succeed, rfl⟩ := result_filterStep_eq_ok_iff.mp h
  have puts : (Dict.singleton operator.target pair.value).get? operator.target =
      some pair.value := by
    rw [Dict.get?_singleton, if_pos rfl]
  refine Edit.holds_build_of_merges ?_ puts fun edit mem own => ?_
  · have place := Dict.mem_toList.mpr entry
    obtain ⟨edits, hedits⟩ := succeed _ place
    refine List.mem_flatMap.mpr ⟨_, place, ?_⟩
    rw [entryEdits_of_ok hedits]
    exact mem_of_entryStep noName condition is hedits
  · obtain ⟨⟨key, other⟩, place, mem⟩ := List.mem_flatMap.mp mem
    have found := Dict.mem_toList.mp place
    refine merge_of_mem_entryStep entry condition is only found ?_ (result_entryStep_of_mem mem) mem
      own
    rintro rfl
    exact noLiteral other found

/-- **Literals.** A literal under a dotted path stands there, whatever pairs lead to the path. -/
theorem get?_of_literal {path : String} {literal : Json}
    (entry : filter.get? (field ++ "." ++ path) = some literal)
    (noObject : literal.isObject = false)
    (h : (filterStep (belowAt cx levels) cls filter).result = .ok query) :
    query.get? (field ++ "." ++ path) = some literal := by
  obtain ⟨-, rfl⟩ := result_filterStep_eq_ok_iff.mp h
  have put : entryEdits (belowAt cx levels) cls (field ++ "." ++ path, literal) =
      [.set (field ++ "." ++ path) literal] := by
    refine entryEdits_of_ok ?_
    rw [entryStep_literal (Combinator.ofName?_dotted field path) noObject,
      outputKey_of_not_id (isIdField_dotted cls field path)]
    rfl
  refine Edit.get?_build_of_greatest entry put fun later greater other found edit mem eq => ?_
  rcases key_of_entryStep (result_entryStep_of_mem mem) edit mem with
    ⟨combinator, -, target⟩ | ⟨-, own | ⟨path', joined⟩⟩
  · exact combinator.target_ne_dotted _ _ (target.symm.trans eq)
  · exact String.lt_irrefl _ (eq_of_outputKey_dotted (own.symm.trans eq) ▸ greater)
  · -- The field of a pair that leads to the path comes before the path.
    have smaller := lt_dotted later path'
    rw [← joined, eq] at smaller
    exact String.lt_asymm greater smaller

end Paths

/-- **Dotted paths.** A pair under an operator of a field states the operator for a dotted path. If
no other condition states it and the filter has a query, then the value of the pair stands in the
query under the dotted path and the target of the operator, unless the filter has a literal under
that path: the literal stands there then, and nothing is left of the pair. -/
theorem lower_dotted (schema : Schema) (codec : Codec) (options : Options)
    {cls field path : String} {filter conditions members : Object} {operator : Operator}
    {value : Json} (named : field ≠ "") (noName : Combinator.ofName? field = none)
    (entry : filter.get? field = some (.obj conditions))
    (condition : conditions.get? operator.name = some (.obj members))
    (key : members.get? "key" = some (.str path)) (nonempty : path ≠ "")
    (holds : members.get? "value" = some value) (notNull : value ≠ .null)
    (only : ∀ key name, States schema cls filter operator (field ++ "." ++ path) key name →
      key = field ∧ name = operator.name) :
    ∀ output, (lower (.of schema codec options) cls (.obj filter)).result = .ok output →
      ∃ query : Object, output = .obj query ∧
        ((∀ other, filter.get? (field ++ "." ++ path) = some other → other.isObject = true) →
          Edit.Holds query (field ++ "." ++ path) operator.target value) ∧
        ∀ literal, filter.get? (field ++ "." ++ path) = some literal → literal.isObject = false →
          query.get? (field ++ "." ++ path) = some literal := by
  intro output h
  rw [result_lower_obj] at h
  obtain ⟨query, hquery, rfl⟩ := Except.map_eq_ok_iff.mp h
  obtain ⟨pair, pairs, rfl, rfl⟩ := exists_pair_of_members key nonempty holds notNull
  have is : pairUnder? field (.ofJson (.obj members)) = some pair :=
    (pairUnder?_of_ne named _).trans pairs
  refine ⟨query, rfl, ?_⟩
  rcases limit : (Context.of schema codec options).limit with _ | levels
  · rw [limit] at hquery
    cases hquery
  · rw [limit, filterAt_succ] at hquery
    exact ⟨fun noLiteral => holds_of_pair noName entry condition is only noLiteral hquery,
      fun literal found noObject => get?_of_literal found noObject hquery⟩

/-! ### Titles in English -/

/-- Asks for titles that are not `Work` in English, with another entry under the dotted path. -/
def notWork (other : Json) : Object :=
  Dict.insert (.singleton "title" (.obj (.singleton "notEqualTo"
    (.obj (.ofList [("key", .str "en"), ("value", .str "Work")]))))) "title.en" other

/-- The condition on titles states its operator alone, if the other entry does not state it. -/
theorem eq_of_states_notWork {other : Json}
    (free : ∀ conditions : Object, other = .obj conditions → ∀ name operand,
      conditions.get? name = some operand → targetKey name ≠ Operator.notEqualTo.target) :
    ∀ key name, States projects "Project" (notWork other) .notEqualTo ("title" ++ "." ++ "en") key
      name → key = "title" ∧ name = Operator.notEqualTo.name := by
  intro key name states
  cases states with
  | @pair _ _ conditions operand pair noName entry condition is leads target =>
    rw [notWork, Dict.get?_insert, Dict.get?_singleton] at entry
    split at entry
    · next dotted =>
      -- A pair under the dotted path leads further.
      have later := lt_dotted key pair.path
      rw [leads, dotted] at later
      exact absurd later (String.lt_irrefl _)
    · split at entry
      · next title =>
        cases entry
        rw [Dict.get?_singleton] at condition
        split at condition
        · next named => exact ⟨title, named⟩
        · cases condition
      · cases entry
  | own entry condition noPair stands =>
    have dotted : "title" ++ "." ++ "en" = "title.en" := by decide
    rw [notWork, Dict.get?_insert, if_pos dotted] at entry
    have plain : projects.reference? "Project" ("title" ++ "." ++ "en") = none := rfl
    rw [conditionKey, plain] at stands
    exact absurd stands (free _ (Option.some.inj entry) _ _ condition)

/-- The conditions of an entry under the dotted path join that of the pair. -/
theorem lower_notWork_object :
    let filter := notWork (.obj (.singleton "equalTo" (.str "Home")))
    let query : Object := .singleton "title.en"
      (.obj (.ofList [("$ne", .str "Work"), ("$eq", .str "Home")]))
    (lower (.of projects .relay {}) "Project" (.obj filter)).result = .ok (.obj query) ∧
      Edit.Holds query "title.en" "$ne" (.str "Work") := by
  intro filter query
  have whole : (lower (.of projects .relay {}) "Project" (.obj filter)).result =
      .ok (.obj query) := rfl
  have only : ∀ key name, States projects "Project" filter .notEqualTo ("title" ++ "." ++ "en") key
      name → key = "title" ∧ name = Operator.notEqualTo.name := by
    refine eq_of_states_notWork ?_
    rintro _ ⟨⟩ name operand found
    rw [Dict.get?_singleton] at found
    split at found
    · next named =>
      subst named
      decide
    · cases found
  have value : Dict.get? (.ofList [("key", Json.str "en"), ("value", .str "Work")]) "value" =
      some (Json.str "Work") := rfl
  obtain ⟨_, ⟨⟩, holds, -⟩ := lower_dotted projects .relay {} (by decide) rfl rfl rfl
    rfl (by decide) value nofun only _ whole
  refine ⟨whole, holds fun other found => ?_⟩
  cases found
  rfl

/-- A literal under the dotted path replaces it. -/
theorem lower_notWork_literal :
    let filter := notWork (.str "Home")
    filter.get? "title" = some (.obj (.singleton Operator.notEqualTo.name
        (.obj (.ofList [("key", .str "en"), ("value", .str "Work")])))) ∧
      (∀ key name, States projects "Project" filter .notEqualTo ("title" ++ "." ++ "en") key name →
        key = "title" ∧ name = Operator.notEqualTo.name) ∧
      ∃ query : Object,
        (lower (.of projects .relay {}) "Project" (.obj filter)).result = .ok (.obj query) ∧
          ¬ Edit.Holds query "title.en" Operator.notEqualTo.target (.str "Work") := by
  intro filter
  refine ⟨rfl, eq_of_states_notWork nofun, .singleton "title.en" (.str "Home"), rfl, ?_⟩
  rintro ⟨members, there, -⟩
  cases there

end Lowering

end FilterQuery
