import FilterQuery.Schema.Document
import Mathlib.Data.List.Nodup

/-!
# Class names

The scan for a repeated name keeps the names that it has passed, last first. It finds nothing
exactly if all names are distinct (`Schema.firstRepeated?_eq_none_iff`), and otherwise the first
name that repeats an earlier one (`Schema.firstRepeated?_eq_some_iff`). So a list of classes is a
schema exactly if their names are distinct (`Schema.ofClasses_eq_ok_iff`), and the error names the
first class that repeats an earlier one (`Schema.ofClasses_eq_error_iff`).

Where names are distinct, looking up a class is no search: what is found is the class of the name
(`Schema.class?_eq_some_iff`), and the order of the classes makes no difference
(`Schema.class?_eq_of_perm`).
-/

namespace FilterQuery.Schema

/-! ### The scan for a repeated name -/

/-- After distinct names, the scan finds nothing exactly if all names are distinct. -/
theorem firstRepeated?_eq_none_iff {seen names : List String} (distinct : seen.Nodup) :
    firstRepeated? seen names = none ↔ (names.reverse ++ seen).Nodup := by
  induction names generalizing seen with
  | nil => exact iff_of_true rfl distinct
  | cons name names ih =>
    rw [firstRepeated?, List.reverse_cons, List.append_assoc, List.singleton_append]
    split
    · next mem =>
      refine iff_of_false nofun fun nodup => ?_
      exact (List.nodup_cons.mp nodup.of_append_right).1 mem
    · next fresh => exact ih (distinct.cons fresh)

/-- After distinct names, the scan finds the first name that repeats one that it has passed. -/
theorem firstRepeated?_eq_some_iff {seen names : List String} {name : String}
    (distinct : seen.Nodup) :
    firstRepeated? seen names = some name ↔ ∃ before after, names = before ++ name :: after ∧
      (before.reverse ++ seen).Nodup ∧ name ∈ before.reverse ++ seen := by
  induction names generalizing seen with
  | nil => simp [firstRepeated?]
  | cons first names ih =>
    have passed (before : List String) :
        (first :: before).reverse ++ seen = before.reverse ++ first :: seen := by
      rw [List.reverse_cons, List.append_assoc, List.singleton_append]
    rw [firstRepeated?]
    split
    · next mem =>
      constructor
      · rintro ⟨⟩
        exact ⟨[], names, rfl, distinct, mem⟩
      · rintro ⟨_ | ⟨other, before⟩, after, split, nodup, -⟩
        · rw [(List.cons.inj split).1]
        · -- The scan cannot have passed the first name, which was seen before.
          obtain ⟨rfl, -⟩ := List.cons.inj split
          rw [passed] at nodup
          exact absurd mem (List.nodup_cons.mp nodup.of_append_right).1
    · next fresh =>
      rw [ih (distinct.cons fresh)]
      constructor
      · rintro ⟨before, after, rfl, nodup, mem⟩
        rw [← passed] at nodup mem
        exact ⟨first :: before, after, rfl, nodup, mem⟩
      · rintro ⟨_ | ⟨other, before⟩, after, split, nodup, mem⟩
        · obtain ⟨rfl, -⟩ := List.cons.inj split
          exact absurd mem fresh
        · obtain ⟨rfl, rfl⟩ := List.cons.inj split
          rw [passed] at nodup mem
          exact ⟨before, after, rfl, nodup, mem⟩

/-! ### Building a schema -/

variable {classes : List ClassSchema}

/-- A list of classes is a schema exactly if the names are distinct. -/
theorem ofClasses_eq_ok_iff {schema : Schema} :
    ofClasses classes = .ok schema ↔ (classes.map ClassSchema.name).Nodup ∧ schema = ⟨classes⟩ := by
  have scan := @firstRepeated?_eq_none_iff [] (classes.map ClassSchema.name) List.nodup_nil
  rw [List.append_nil, List.nodup_reverse] at scan
  rw [ofClasses, ← scan]
  split
  · next name found => simp [found]
  · next distinct => simp [distinct, eq_comm]

/-- A list of classes is refused with the name of the first class that has the name of an earlier
one. -/
theorem ofClasses_eq_error_iff {error : SchemaError} :
    ofClasses classes = .error error ↔ ∃ before cls after, classes = before ++ cls :: after ∧
      (before.map ClassSchema.name).Nodup ∧ (∃ earlier ∈ before, earlier.name = cls.name) ∧
        error = .duplicateClass cls.name := by
  have scan {name : String} :=
    @firstRepeated?_eq_some_iff [] (classes.map ClassSchema.name) name List.nodup_nil
  simp only [List.append_nil, List.nodup_reverse, List.mem_reverse] at scan
  have refused : ofClasses classes = .error error ↔
      ∃ name, firstRepeated? [] (classes.map ClassSchema.name) = some name ∧
        error = .duplicateClass name := by
    rw [ofClasses]
    split
    · next name found => simp [found, eq_comm]
    · next distinct => simp [distinct]
  rw [refused]
  constructor
  · rintro ⟨name, found, rfl⟩
    obtain ⟨before', after', split, distinct, mem⟩ := scan.mp found
    -- The names before and after the repetition are those of the classes before and after it.
    obtain ⟨before, rest, rfl, rfl, hrest⟩ := List.map_eq_append_iff.mp split
    obtain ⟨cls, after, rfl, rfl, rfl⟩ := List.map_eq_cons_iff.mp hrest
    exact ⟨before, cls, after, rfl, distinct, List.mem_map.mp mem, rfl⟩
  · rintro ⟨before, cls, after, rfl, distinct, repeats, rfl⟩
    refine ⟨cls.name, scan.mpr ⟨_, after.map ClassSchema.name, ?_, distinct, ?_⟩, rfl⟩
    · rw [List.map_append, List.map_cons]
    · exact List.mem_map.mpr repeats

/-! ### Schemas that are built and read -/

/-- The classes of a schema that is built have distinct names. -/
theorem nodup_of_ofClasses {classes : List ClassSchema} {schema : Schema}
    (h : ofClasses classes = .ok schema) : schema.names.Nodup := by
  obtain ⟨distinct, rfl⟩ := ofClasses_eq_ok_iff.mp h
  exact distinct

/-- The classes of a schema that is read have distinct names. -/
theorem nodup_of_ofDocument {limit : Document.Limit} {document : Document} {schema : Schema}
    (h : ofDocument limit document = .ok schema) : schema.names.Nodup := by
  unfold ofDocument at h
  split at h
  · exact nodup_of_ofClasses h
  · cases h

/-- The classes of a schema that is read from a text have distinct names. -/
theorem nodup_of_ofText {text : String} {schema : Schema} (h : ofText text = .ok schema) :
    schema.names.Nodup := by
  unfold ofText at h
  split at h
  · exact nodup_of_ofDocument h
  · cases h

/-! ### Looking up classes -/

/-- No class is found exactly if none has the name. -/
theorem class?_eq_none_iff {schema : Schema} {name : String} :
    schema.class? name = none ↔ ∀ cls ∈ schema.classes, cls.name ≠ name := by
  simp only [class?, List.find?_eq_none, decide_eq_true_eq]

/-- Where names are distinct, what is found is the class of the name. -/
theorem class?_eq_some_iff {schema : Schema} (distinct : schema.names.Nodup) {name : String}
    {cls : ClassSchema} :
    schema.class? name = some cls ↔ cls ∈ schema.classes ∧ cls.name = name := by
  constructor
  · intro found
    exact ⟨List.mem_of_find?_eq_some found, by simpa using List.find?_some found⟩
  · rintro ⟨mem, rfl⟩
    rcases found : schema.class? cls.name with _ | other
    · exact absurd rfl (class?_eq_none_iff.mp found cls mem)
    · have mem' : other ∈ schema.classes := List.mem_of_find?_eq_some found
      have eq : other.name = cls.name := by simpa using List.find?_some found
      rw [List.inj_on_of_nodup_map distinct mem' mem eq]

/-- Where names are distinct, classes are found in any order of them. -/
theorem class?_eq_of_perm {schema schema' : Schema} (distinct : schema.names.Nodup)
    (perm : schema'.classes.Perm schema.classes) (name : String) :
    schema'.class? name = schema.class? name := by
  have distinct' : schema'.names.Nodup := (perm.map ClassSchema.name).nodup_iff.mpr distinct
  refine Option.ext fun cls => ?_
  rw [class?_eq_some_iff distinct', class?_eq_some_iff distinct, perm.mem_iff]

/-- Where names are distinct, fields are found in any order of the classes. -/
theorem field?_eq_of_perm {schema schema' : Schema} (distinct : schema.names.Nodup)
    (perm : schema'.classes.Perm schema.classes) (name field : String) :
    schema'.field? name field = schema.field? name field := by
  rw [field?, field?, class?_eq_of_perm distinct perm]

end FilterQuery.Schema
