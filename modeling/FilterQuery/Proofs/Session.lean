import FilterQuery.Proofs.Options
import FilterQuery.Proofs.Schema.Names
import FilterQuery.Session

/-!
# What sessions keep

A session is valid if its classes have distinct names and its options grant at least one level.
A step that succeeds keeps that, since schemas and options are checked whenever they are replaced
(`Session.Valid.attempt`), and a step that fails changes nothing. So every session that can be
reached is valid (`Session.Reachable.valid`), and in it the class of a name is well defined
(`Session.classes_stay_distinct`).
-/

namespace FilterQuery.Session

/-- **Valid sessions.** -/
structure Valid (s : Session) : Prop where
  /-- No two classes have the same name. -/
  distinct : s.schema.names.Nodup
  /-- A filter may enter at least one level. -/
  depth : 1 ≤ s.options.maxDepth

/-- **Reachable sessions.** What steps lead to from the start. Apart from the steps of a session, a
schema may also be read from a value. -/
inductive Reachable : Session → Prop
  /-- The start. -/
  | start : Reachable {}
  /-- A step, whether it succeeds or fails. -/
  | step {s : Session} (reach : Reachable s) (next : Step) : Reachable (s.step next).1
  /-- A schema that is read from a value. -/
  | readSchema {s : Session} (reach : Reachable s) {value : Json} {schema : Schema}
    (read : Schema.ofJson value = .ok schema) : Reachable { s with schema }

/-- Steps lead from reachable sessions to reachable ones. -/
theorem Reachable.run {s : Session} (reach : Reachable s) (steps : List Step) :
    Reachable (s.run steps).1 := by
  induction steps generalizing s with
  | nil => exact reach
  | cons next rest ih => exact ih (reach.step next)

/-! ### Valid sessions stay valid -/

/-- A session is valid at the start: it has no classes, and the default limit. -/
theorem Valid.start : Valid {} := ⟨List.nodup_nil, by decide⟩

/-- **Steps.** A step that succeeds keeps a session valid. -/
theorem Valid.attempt {s s' : Session} {next : Step} {answer : Answer} (valid : s.Valid)
    (h : s.attempt next = .ok (s', answer)) : s'.Valid := by
  cases next with
  | loadSchema text =>
    obtain ⟨schema, loaded, ⟨⟩⟩ := Except.bind_eq_ok_iff.mp h
    exact ⟨Schema.nodup_of_ofText (Except.mapError_eq_ok_iff.mp loaded), valid.depth⟩
  | addClass cls =>
    obtain ⟨schema, built, ⟨⟩⟩ := Except.bind_eq_ok_iff.mp h
    exact ⟨Schema.nodup_of_ofClasses (Except.mapError_eq_ok_iff.mp built), valid.depth⟩
  | loadOptions text =>
    obtain ⟨options, loaded, ⟨⟩⟩ := Except.bind_eq_ok_iff.mp h
    exact ⟨valid.distinct, Options.one_le_of_ofText (Except.mapError_eq_ok_iff.mp loaded)⟩
  | override overrides =>
    obtain ⟨options, overridden, ⟨⟩⟩ := Except.bind_eq_ok_iff.mp h
    exact ⟨valid.distinct, Options.one_le_of_override (Except.mapError_eq_ok_iff.mp overridden)⟩
  | makeStrict =>
    cases h
    exact ⟨valid.distinct, valid.depth⟩
  | useCodec codec =>
    cases h
    exact ⟨valid.distinct, valid.depth⟩
  | encode identifier =>
    cases h
    exact valid
  | lower cls filter =>
    obtain ⟨query, -, ⟨⟩⟩ := Except.bind_eq_ok_iff.mp h
    exact ⟨valid.distinct, valid.depth⟩

/-- A step keeps a session valid, whether it succeeds or fails. -/
theorem Valid.step {s : Session} (valid : s.Valid) (next : Step) : (s.step next).1.Valid := by
  unfold Session.step
  split
  · next s' answer h => exact valid.attempt h
  · exact valid

/-- **Reachable sessions are valid.** -/
theorem Reachable.valid {s : Session} (reach : Reachable s) : s.Valid := by
  induction reach with
  | start => exact .start
  | step _ next ih => exact ih.step next
  | readSchema _ read ih => exact ⟨Schema.nodup_of_ofDocument read, ih.depth⟩

/-- **Distinct classes.** A list of classes is a schema exactly if their names are distinct, and is
refused otherwise with the name of the first class that has the name of an earlier one. So in every
session that can be reached, names are distinct and at least one level is granted; the class that
is found under a name is the one that has it; and the order of the classes shows in no answer. -/
theorem classes_stay_distinct :
    (∀ classes : List ClassSchema,
      (∀ schema, Schema.ofClasses classes = .ok schema ↔
        (classes.map ClassSchema.name).Nodup ∧ schema = ⟨classes⟩) ∧
      ∀ error, Schema.ofClasses classes = .error error ↔
        ∃ before cls after, classes = before ++ cls :: after ∧
          (before.map ClassSchema.name).Nodup ∧ (∃ earlier ∈ before, earlier.name = cls.name) ∧
            error = .duplicateClass cls.name) ∧
    ∀ s : Session, s.Reachable →
      s.schema.names.Nodup ∧ 1 ≤ s.options.maxDepth ∧
      (∀ name cls, s.schema.class? name = some cls ↔
        cls ∈ s.schema.classes ∧ cls.name = name) ∧
      (∀ name, s.schema.class? name = none ↔ ∀ cls ∈ s.schema.classes, cls.name ≠ name) ∧
      ∀ schema : Schema, schema.classes.Perm s.schema.classes → ∀ name,
        schema.class? name = s.schema.class? name ∧
          ∀ field, schema.field? name field = s.schema.field? name field := by
  constructor
  · intro classes
    exact ⟨fun _ => Schema.ofClasses_eq_ok_iff, fun _ => Schema.ofClasses_eq_error_iff⟩
  · intro s reach
    have distinct : s.schema.names.Nodup := reach.valid.distinct
    refine ⟨distinct, reach.valid.depth, fun name cls => ?_, fun name => ?_, ?_⟩
    · exact Schema.class?_eq_some_iff distinct
    · exact Schema.class?_eq_none_iff
    · intro schema perm name
      exact ⟨Schema.class?_eq_of_perm distinct perm name,
        Schema.field?_eq_of_perm distinct perm name⟩

/-- Steps that succeed and steps that fail: a class is repeated, no level is granted, a schema
repeats a class. -/
def mixedSteps : List Step := [
  .addClass { name := "Task" },
  .addClass { name := "Task", permissions := some (.bool true) },
  .loadOptions "\x7b\"max_depth\": 0\x7d",
  .override { maxDepth := some " +32 " },
  .loadSchema "[[\"Task\"], [\"Note\"], [\"Task\"]]",
  .makeStrict,
  .addClass { name := "Project" }]

/-- The session after the steps has two classes, which are found in any order. -/
theorem classes_stay_distinct_mixedSteps :
    Reachable (run {} mixedSteps).1 ∧
    (run {} mixedSteps).1.schema.names = ["Task", "Project"] ∧
    (run {} mixedSteps).1.options = { policy := .strict, maxDepth := 32 } ∧
    (run {} mixedSteps).1.schema.names.Nodup ∧ 1 ≤ (run {} mixedSteps).1.options.maxDepth ∧
    ∀ name, Schema.class? ⟨(run {} mixedSteps).1.schema.classes.reverse⟩ name =
      (run {} mixedSteps).1.schema.class? name := by
  have reach : Reachable (run {} mixedSteps).1 := Reachable.start.run mixedSteps
  obtain ⟨distinct, depth, -, -, order⟩ := classes_stay_distinct.2 _ reach
  refine ⟨reach, by decide +kernel, by decide +kernel, distinct, depth, fun name => ?_⟩
  exact (order ⟨_⟩ (List.reverse_perm _) name).1

end FilterQuery.Session
