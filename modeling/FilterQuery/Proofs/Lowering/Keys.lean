import FilterQuery.Proofs.Lowering.Edits
import FilterQuery.Proofs.Lowering.Noninterference
import FilterQuery.Proofs.Lowering.Pairs

/-!
# Keys of a query

Each entry of a filter decides on its own which keys it gives to the query (`EntryKey`). What other
entries do under such a key changes the value there and never takes the key away. So the keys of a
query are those that its entries give, no more and no less (`lower_keys`).

An entry with pairs gives their dotted paths alone. Every other entry gives one key: the target of
its combinator, the key of local ids, or its own.
-/

namespace FilterQuery

namespace Lowering

/-- No condition in the value is a pair. A literal has no conditions. -/
def Undotted (value : Json) : Prop := ∀ operands, value = .obj operands → Unpaired operands

/-- **Keys of entries.** A key that an entry of a filter gives to the query. -/
inductive EntryKey (cls key : String) (value : Json) : String → Prop
  /-- A combinator gives its target. -/
  | combinator {combinator : Combinator} (name : Combinator.ofName? key = some combinator) :
    EntryKey cls key value combinator.target
  /-- A field gives the dotted path of each of its pairs. -/
  | dotted {operands : Object} {name : String} {operand : Json} {pair : PathPair}
    (noName : Combinator.ofName? key = none) (named : key ≠ "") (eq : value = .obj operands)
    (condition : operands.get? name = some operand)
    (is : (Operand.ofJson operand).pair? = some pair) :
    EntryKey cls key value (key ++ "." ++ pair.path)
  /-- A field without pairs, or without a name, gives its key. -/
  | own (noName : Combinator.ofName? key = none) (notId : ¬ (key = idField ∧ cls ≠ ""))
    (undotted : Undotted value ∨ key = "") : EntryKey cls key value key
  /-- Where there is a class, the field `id` without pairs gives the key of local ids. -/
  | objectId (isId : key = idField) (hasClass : cls ≠ "") (undotted : Undotted value) :
    EntryKey cls key value objectIdKey

section Entries

variable {cx : Context} {below : Below} {levels : Nat} {cls field key : String}
  {operands filter query : Object} {value : Json} {edits : List Edit}

/-- The keys of the edits of a field: the dotted paths of its pairs, or the key that it is sent
to. -/
theorem exists_key_of_fieldStep_iff
    (h : (fieldStep cx below cls field key operands).result = .ok edits) {k : String} :
    (∃ edit ∈ edits, edit.key = k) ↔
      (∃ name operand pair, operands.get? name = some operand ∧
          pairUnder? field (.ofJson operand) = some pair ∧ field ++ "." ++ pair.path = k) ∨
        (field = "" ∨ Unpaired operands) ∧ outputKey cls field key = k := by
  have paths : (∃ edit ∈ pathEdits field operands, edit.key = k) ↔
      ∃ name operand pair, operands.get? name = some operand ∧
        pairUnder? field (.ofJson operand) = some pair ∧ field ++ "." ++ pair.path = k := by
    constructor
    · rintro ⟨edit, mem, rfl⟩
      obtain ⟨name, operand, pair, found, is, rfl⟩ := mem_pathEdits.mp mem
      exact ⟨name, operand, pair, found, is, rfl⟩
    · rintro ⟨name, operand, pair, found, is, rfl⟩
      exact ⟨_, mem_pathEdits.mpr ⟨name, operand, pair, found, is, rfl⟩, rfl⟩
  rw [← pathEdits_eq_nil_iff, ← paths]
  obtain ⟨some, rfl⟩ | ⟨none, -, -, lowered, -, -, -, rfl⟩ := edits_of_fieldStep h
  · simp [some]
  · simp [none, Edit.key]

theorem pairUnder?_eq_some_iff {operand : Operand} {pair : PathPair} :
    pairUnder? field operand = some pair ↔ field ≠ "" ∧ operand.pair? = some pair := by
  rw [pairUnder?]
  split
  · next empty => simp [empty]
  · next named => simp [named]

/-- A combinator gives nothing but its target. -/
theorem entryKey_iff_of_some {combinator : Combinator}
    (name : Combinator.ofName? key = some combinator) {k : String} :
    EntryKey cls key value k ↔ combinator.target = k := by
  constructor
  · rintro (name' | noName | noName | isId)
    · cases name.symm.trans name'
      rfl
    · cases name.symm.trans noName
    · cases name.symm.trans noName
    · subst isId
      cases name
  · rintro rfl
    exact .combinator name

/-- A field gives the dotted paths of its pairs, or the key that it is sent to. -/
theorem entryKey_iff_of_none (noName : Combinator.ofName? key = none) {k : String} :
    EntryKey cls key value k ↔
      (∃ operands name operand pair, value = .obj operands ∧ operands.get? name = some operand ∧
          pairUnder? key (.ofJson operand) = some pair ∧ key ++ "." ++ pair.path = k) ∨
        (key = "" ∨ Undotted value) ∧ outputKey cls key key = k := by
  constructor
  · rintro (name | @⟨operands, name, operand, pair, -, named, eq, condition, is⟩ |
      ⟨-, notId, undotted⟩ | ⟨isId, hasClass, undotted⟩)
    · cases noName.symm.trans name
    · exact .inl ⟨operands, name, operand, pair, eq, condition,
        pairUnder?_eq_some_iff.mpr ⟨named, is⟩, rfl⟩
    · have plain : isIdField cls key = false :=
        Bool.eq_false_iff.mpr fun isId => notId (isIdField_iff.mp isId)
      exact .inr ⟨undotted.symm, outputKey_of_not_id plain key⟩
    · exact .inr ⟨.inr undotted, outputKey_of_id isId hasClass key⟩
  · rintro (⟨operands, name, operand, pair, eq, condition, is, rfl⟩ | ⟨undotted, rfl⟩)
    · obtain ⟨named, is⟩ := pairUnder?_eq_some_iff.mp is
      exact .dotted noName named eq condition is
    · by_cases isId : key = idField ∧ cls ≠ ""
      · obtain ⟨rfl, hasClass⟩ := isId
        rw [outputKey_of_id rfl hasClass]
        exact .objectId rfl hasClass (undotted.resolve_left (by decide))
      · have plain : isIdField cls key = false :=
          Bool.eq_false_iff.mpr fun isIdField => isId (isIdField_iff.mp isIdField)
        rw [outputKey_of_not_id plain]
        exact .own noName isId undotted.symm

/-- The keys of the edits of an entry are those that it gives. -/
theorem exists_key_of_entryStep_iff
    (h : (entryStep (belowAt cx levels) cls key value).result = .ok edits) {k : String} :
    (∃ edit ∈ edits, edit.key = k) ↔ EntryKey cls key value k := by
  rcases name : Combinator.ofName? key with _ | combinator
  · rw [entryKey_iff_of_none name]
    cases value with
    | obj operands =>
      rw [entryStep_obj name] at h
      have undotted : Undotted (.obj operands) ↔ Unpaired operands := by simp [Undotted]
      cases levels with
      | zero => cases h
      | succ levels => simp [exists_key_of_fieldStep_iff h, undotted]
    | _ =>
      rw [entryStep_literal name rfl] at h
      cases h
      simp [Undotted, Edit.key]
  · rw [entryKey_iff_of_some name]
    rw [result_entryStep_of_some name] at h
    obtain ⟨lowered, -, rfl⟩ := Except.map_eq_ok_iff.mp h
    simp [Edit.key]

/-- **Keys of filters.** The keys of what a filter becomes are those that its entries give. -/
theorem mem_keys_of_filterAt_iff (h : (filterAt cx levels cls filter).result = .ok query)
    {k : String} :
    k ∈ query.keys ↔ ∃ key value, filter.get? key = some value ∧ EntryKey cls key value k := by
  cases levels with
  | zero => cases h
  | succ levels =>
    rw [filterAt_succ] at h
    obtain ⟨succeed, rfl⟩ := result_filterStep_eq_ok_iff.mp h
    have each : ∀ key value, filter.get? key = some value →
        ((∃ edit ∈ entryEdits (belowAt cx levels) cls (key, value), edit.key = k) ↔
          EntryKey cls key value k) := by
      intro key value found
      obtain ⟨edits, step⟩ := succeed (key, value) (Dict.mem_toList.mpr found)
      rw [entryEdits_of_ok step]
      exact exists_key_of_entryStep_iff step
    rw [Dict.mem_keys, Edit.isSome_get?_build_iff]
    constructor
    · rintro ⟨edit, mem, own⟩
      obtain ⟨⟨key, value⟩, place, mem⟩ := List.mem_flatMap.mp mem
      have found := Dict.mem_toList.mp place
      exact ⟨key, value, found, (each key value found).mp ⟨edit, mem, own⟩⟩
    · rintro ⟨key, value, found, gives⟩
      obtain ⟨edit, mem, own⟩ := (each key value found).mpr gives
      exact ⟨edit, List.mem_flatMap.mpr ⟨_, Dict.mem_toList.mpr found, mem⟩, own⟩

end Entries

/-- **Keys.** The keys of the query of a filter are those that the entries of the filter give. So
where there is a class, `id` is not among them, and any other field that is missing has a pair. -/
theorem lower_keys (schema : Schema) (codec : Codec) (options : Options) (cls : String)
    (filter : Object) :
    ∀ output, (lower (.of schema codec options) cls (.obj filter)).result = .ok output →
      ∃ query : Object, output = .obj query ∧
        (∀ k, k ∈ query.keys ↔
          ∃ key value, filter.get? key = some value ∧ EntryKey cls key value k) ∧
        (cls ≠ "" → idField ∉ query.keys) ∧
        ∀ key value, filter.get? key = some value → Combinator.ofName? key = none →
          ¬ (key = idField ∧ cls ≠ "") → key ∉ query.keys →
          ∃ operands name operand pair, value = .obj operands ∧
            operands.get? name = some operand ∧ (Operand.ofJson operand).pair? = some pair := by
  intro output h
  rw [result_lower_obj] at h
  obtain ⟨query, hquery, rfl⟩ := Except.map_eq_ok_iff.mp h
  have keys := @mem_keys_of_filterAt_iff _ _ _ _ _ hquery
  refine ⟨query, rfl, fun k => keys, fun hasClass mem => ?_, ?_⟩
  · obtain ⟨key, value, -, gives⟩ := keys.mp mem
    generalize eq : idField = k at gives
    cases gives with
    | @combinator combinator name => exact absurd eq (by cases combinator <;> decide)
    | @dotted _ _ _ pair => exact absurd eq (ne_dotted (by decide) key pair.path)
    | own _ notId => exact notId ⟨eq.symm, hasClass⟩
    | objectId => exact absurd eq (by decide)
  · intro key value found noName notId missing
    by_contra noPair
    refine missing (keys.mpr ⟨key, value, found, .own noName notId (.inl ?_)⟩)
    rintro operands rfl name operand condition
    refine Option.eq_none_iff_forall_ne_some.mpr fun pair is => ?_
    exact noPair ⟨operands, name, operand, pair, rfl, condition, is⟩

/-! ### A project by its title -/

/-- The condition of being `Home` in English. -/
def homeInEnglish : Object :=
  .singleton "equalTo" (.obj (.ofList [("key", .str "en"), ("value", .str "Home")]))

/-- The same condition under a field and under no name, with a combinator that is no list and an
identifier. -/
def homeTwice : Object :=
  .ofList [("", .obj homeInEnglish), ("OR", .str "Home"), ("id", .str "UHJvamVjdDox"),
    ("title", .obj (homeInEnglish.insert "exists" (.bool true)))]

/-- Under no name the pair stays, and under the title it takes the other condition with it. -/
theorem lower_homeTwice_keys :
    ∃ query : Object,
      (lower (.of projects .relay {}) "Project" (.obj homeTwice)).result = .ok (.obj query) ∧
      query.keys = ["", "$or", "objectId", "title.en"] ∧
      (∀ k, k ∈ query.keys ↔
        ∃ key value, homeTwice.get? key = some value ∧ EntryKey "Project" key value k) ∧
      idField ∉ query.keys := by
  let query : Object := .ofList [("", .obj (.singleton "$eq"
      (.obj (.ofList [("key", .str "en"), ("value", .str "Home")])))), ("$or", .str "Home"),
    ("objectId", .str "UHJvamVjdDox"), ("title.en", .obj (.singleton "$eq" (.str "Home")))]
  have whole : (lower (.of projects .relay {}) "Project" (.obj homeTwice)).result =
      .ok (.obj query) := rfl
  obtain ⟨_, ⟨⟩, keys, noId, -⟩ := lower_keys projects .relay {} "Project" homeTwice _ whole
  exact ⟨query, whole, rfl, keys, noId (by decide)⟩

end Lowering

end FilterQuery
