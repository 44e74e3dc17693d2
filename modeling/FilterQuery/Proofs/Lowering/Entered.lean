import FilterQuery.Proofs.Geo
import FilterQuery.Proofs.Lowering.Settled
import FilterQuery.Proofs.Lowering.Texts

/-!
# Objects that are entered

`Entered` are the objects that lowering meets on a class without references. An operand is encoded
before it is entered, so a coordinate is met with its stamp, and the corners of a box that has
become a list are not met at all. What is entered next is computed (`Place.enters`), so a list of
objects that is closed under it has them all (`mem_of_entered`).

What lowering leaves of a value is seen in the value already: it is an object, a text or a pair only
where the value was one (`Reflects`).
-/

namespace FilterQuery

namespace Lowering

/-- The objects that are entered from an entry of an object, with their places. -/
def Place.enters : Place → String → Json → List (Place × Object)
  | .filter, key, value => match Combinator.ofName? key, value with
    | some _, .arr items => items.filterMap fun item => item.members?.map (Place.filter, ·)
    | none, .obj operands => [(.conditions key, operands)]
    | _, _ => []
  | .conditions field, name, operand =>
    ((Geo.encode (Operator.ofName? name) (.ofJson operand)).members?.map
      ((Place.conditions field).below name, ·)).toList

/-- **Entering.** The objects of an input that lowering enters, with their places. -/
inductive Entered (input : Json) : Place → Object → Prop
  /-- The input itself is a filter. -/
  | input {filter : Object} (eq : input = .obj filter) : Entered input .filter filter
  /-- An object that is entered from an entry of another. -/
  | inner {place inside : Place} {members object : Object} {key : String} {value : Json}
    (entered : Entered input place members) (entry : members.get? key = some value)
    (mem : (inside, object) ∈ place.enters key value) : Entered input inside object

/-- Objects that are closed under entering have all that is entered. -/
theorem mem_of_entered {input : Json} {objects : List (Place × Object)}
    (start : ∀ filter, input = .obj filter → (.filter, filter) ∈ objects)
    (closed : ∀ object ∈ objects, ∀ entry ∈ object.2.toList,
      ∀ next ∈ object.1.enters entry.1 entry.2, next ∈ objects)
    {place : Place} {members : Object} (entered : Entered input place members) :
    (place, members) ∈ objects := by
  induction entered with
  | input eq => exact start _ eq
  | inner _ entry mem ih => exact closed _ ih _ (Dict.mem_toList.mpr entry) _ mem

section Entries

variable {input : Json} {members : Object} {key : String}

/-- The conditions of a field are entered. -/
theorem Entered.field (entered : Entered input .filter members)
    (noName : Combinator.ofName? key = none) {operands : Object}
    (entry : members.get? key = some (.obj operands)) :
    Entered input (.conditions key) operands := by
  refine entered.inner entry ?_
  unfold Place.enters
  dsimp only
  rw [noName]
  exact List.mem_singleton_self _

/-- The object that an operand is encoded as is entered. -/
theorem Entered.encoded {field : String} (entered : Entered input (.conditions field) members)
    {operand : Json} (entry : members.get? key = some operand) {nested : Object}
    (encoded : Geo.encode (Operator.ofName? key) (.ofJson operand) = .obj nested) :
    Entered input ((Place.conditions field).below key) nested := by
  refine entered.inner entry ?_
  rw [Place.enters, encoded]
  exact List.mem_singleton_self _

end Entries

/-! ### Targets of targets -/

section Targets

variable {cls key : String} {place : Place} {value lowered : Json}

theorem ofName?_targetKey (name : String) : Operator.ofName? (targetKey name) = none := by
  rw [targetKey]
  rcases spelled : Operator.ofName? name with _ | operator
  · exact spelled
  · exact Operator.ofName?_target operator

theorem isIdField_target (operator : Operator) : isIdField cls operator.target = false :=
  isIdField_of_ne (by cases operator <;> decide) cls

/-- A key that something is sent to is its own target. -/
theorem Place.target_target (object : lowered.isObject = true → value.isObject = true) :
    place.target cls (place.target cls key value) lowered = place.target cls key value := by
  cases place with
  | filter =>
    rw [Place.target_filter_eq_self_iff]
    rcases name : Combinator.ofName? key with _ | combinator
    · rw [Place.target_filter_of_none name, outputKey]
      split
      · exact ⟨rfl, isIdField_of_ne (by decide) cls⟩
      · next plain => exact ⟨name, Bool.eq_false_iff.mpr plain⟩
    · rw [Place.target_filter_of_some name]
      cases combinator <;> exact ⟨rfl, isIdField_of_ne (by decide) cls⟩
  | conditions field =>
    rw [Place.target_conditions_eq_self_iff]
    cases value with
    | obj nested =>
      rw [Place.target, outputKey]
      split
      · exact ⟨by decide, fun _ => isIdField_of_ne (by decide) cls⟩
      · next plain =>
        refine ⟨ofName?_targetKey key, fun _ => ?_⟩
        rw [targetKey]
        rcases Operator.ofName? key with _ | operator
        · exact Bool.eq_false_iff.mpr plain
        · exact isIdField_target operator
    | _ =>
      refine ⟨ofName?_targetKey key, fun isObject => ?_⟩
      cases object isObject

/-- The names that tell pairs and filters are no targets of other names. -/
theorem Place.target_eq_of_mem (mem : place.target cls key value ∈ ["key", "value", whereKey]) :
    place.target cls key value = key := by
  have ofOutputKey {k : String} (mem : outputKey cls key k ∈ ["key", "value", whereKey]) :
      outputKey cls key k = k := by
    rw [outputKey] at mem ⊢
    split at mem
    · exact absurd mem (by decide)
    · next plain => exact if_neg plain
  have ofTargetKey (mem : targetKey key ∈ ["key", "value", whereKey]) : targetKey key = key := by
    rcases spelled : Operator.ofName? key with _ | operator
    · exact targetKey_eq_self_iff.mpr spelled
    · have is : targetKey key = operator.target := by rw [targetKey, spelled]; rfl
      have fresh : operator.target ∉ ["key", "value", whereKey] := by cases operator <;> decide
      exact absurd (is ▸ mem) fresh
  cases place with
  | filter =>
    rcases name : Combinator.ofName? key with _ | combinator
    · rw [Place.target_filter_of_none name] at mem ⊢
      exact ofOutputKey mem
    · rw [Place.target_filter_of_some name] at mem
      have fresh : combinator.target ∉ ["key", "value", whereKey] := by cases combinator <;> decide
      exact absurd mem fresh
  | conditions field =>
    cases value with
    | obj nested =>
      have own := ofOutputKey mem
      exact own.trans (ofTargetKey (own ▸ mem))
    | _ => exact ofTargetKey mem

end Targets

/-! ### Reflected values -/

/-- **Reflections.** What is asked of a result to be taken for something holds of its source
already. -/
structure Reflects (source result : Json) : Prop where
  /-- Only an object becomes an object. -/
  object : result.isObject = true → source.isObject = true
  /-- Only a text that is not empty becomes one. -/
  text : ∀ path, result = .str path → path ≠ "" → ∃ written, source = .str written ∧ written ≠ ""
  /-- Null stays null. -/
  notNull : result ≠ .null → source ≠ .null
  /-- Only a pair becomes a pair. -/
  unpaired : (Operand.ofJson source).pair? = none → (Operand.ofJson result).pair? = none

namespace Reflects

variable {source middle result value : Json}

theorem refl (value : Json) : Reflects value value where
  object := id
  text path eq nonempty := ⟨path, eq, nonempty⟩
  notNull := id
  unpaired := id

theorem trans (first : Reflects source middle) (second : Reflects middle result) :
    Reflects source result where
  object := first.object ∘ second.object
  text path eq nonempty := by
    obtain ⟨written, same, nonempty⟩ := second.text path eq nonempty
    exact first.text written same nonempty
  notNull := first.notNull ∘ second.notNull
  unpaired := second.unpaired ∘ first.unpaired

/-- What becomes a list only has to be there. -/
theorem of_arr (notNull : source ≠ .null) (items : List Json) : Reflects source (.arr items) where
  object := nofun
  text := nofun
  notNull _ := notNull
  unpaired _ := rfl

theorem of_lists (items lowered : List Json) : Reflects (.arr items) (.arr lowered) :=
  of_arr (by simp) lowered

/-- An object reflects another if the members that could make it a pair do. -/
theorem of_members {members lowered : Object}
    (each : ∀ name ∈ ["key", "value"], ∀ result, lowered.get? name = some result →
      ∃ source, members.get? name = some source ∧ Reflects source result) :
    Reflects (.obj members) (.obj lowered) where
  object _ := rfl
  text := nofun
  notNull _ := nofun
  unpaired none := by
    refine Option.eq_none_iff_forall_ne_some.mpr fun pair is => ?_
    rw [Operand.ofJson, Operand.pair?_ofObject] at none is
    have written := PathPair.written_of_ofObject? is
    obtain ⟨path, keyed, reflects⟩ := each "key" (by decide) _ written.key
    obtain ⟨value, holds, reflects'⟩ := each "value" (by decide) _ written.holds
    obtain ⟨text, rfl, nonempty⟩ := reflects.text _ rfl written.nonempty
    have pair := PathPair.ofObject?_of_written
      ⟨keyed, nonempty, holds, reflects'.notNull written.notNull⟩
    rw [none] at pair
    cases pair

end Reflects

/-- A stamp makes no pair. -/
theorem reflects_stamp (point : Object) : Reflects (.obj point) (.obj (Geo.stamp point)) := by
  refine .of_members fun name mem result found => ⟨result, ?_, .refl result⟩
  have ne : name ≠ Geo.typeKey := by
    rintro rfl
    exact absurd mem (by decide)
  rwa [← Geo.get?_stamp_of_ne point ne]

/-- Encoding makes no objects, texts or pairs. -/
theorem reflects_encode (operator : Option Operator) (value : Json) :
    Reflects value (Geo.encode operator (.ofJson value)) := by
  obtain same | ⟨members, rfl, stamped⟩ | ⟨notNull, items, list⟩ := Geo.encode_cases operator value
  · rw [same]
    exact .refl value
  · rw [stamped]
    exact reflects_stamp members
  · rw [list]
    exact .of_arr notNull items

/-- Replacing identifiers makes no objects, texts or pairs, if the empty text stays. -/
theorem reflects_mapIdsUnder {ids : String → String} (blank : ids "" = "") (cls field : String)
    (operand : Json) : Reflects operand (mapIdsUnder ids cls field operand) := by
  unfold mapIdsUnder
  split
  · cases operand with
    | str encoded =>
      refine ⟨fun object => ?_, fun path eq nonempty => ⟨encoded, rfl, ?_⟩, ?_, fun _ => rfl⟩
      · cases object
      · rintro rfl
        exact nonempty (Json.str.inj (eq.symm.trans (congrArg Json.str blank)))
      · simp
    | arr items => exact .of_lists items _
    | _ => exact .refl _
  · exact .refl operand

end Lowering

end FilterQuery
