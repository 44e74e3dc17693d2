import FilterQuery.Proofs.Except
import FilterQuery.Proofs.Json.Document
import FilterQuery.Proofs.Schema.Names

/-!
# Schemas survive writing

Reading a record gives its parts, so a field that is written is read back (`Field.restores`), and
so is a class, unless its permissions are the null value, which stands for no permissions
(`ClassSchema.restores`). No class that is read has such permissions, and none that is built: every
schema that is obtained from texts, values and built classes is writable
(`Schema.Obtained.writable`), and a writable schema is read back
(`Schema.Writable.ofJson_toJson`).

What a class carries is written as it was read, in whatever form the class was given
(`ClassSchema.carries_of_read?`). `Schema.survives_writing` puts both together.
-/

namespace FilterQuery

open Document

/-! ### Reading what was written -/

/-- **Fields.** A field that is written is read back. -/
theorem Field.restores (field : Field) : Restores Field.read? Field.toJson field := by
  have parts : record? ["type", "targetClass", "required"] none (ofJson field.toJson) =
      some (none, [some (ofJson (.str field.type.tag)), (field.targetClass.map .str).map ofJson,
        (field.required.map .bool).map ofJson]) := record?_ofPresent (by simp)
  have type : FieldType.read? none (ofJson (.str field.type.tag)) = some field.type := by
    rw [FieldType.read?, ofJson, tag?, Option.map_some, FieldType.ofTag_tag]
  have target : orDefault (nullable? text?) none none ((field.targetClass.map .str).map ofJson) =
      some field.targetClass :=
    orDefault_nullable?_restores fun value _ => ⟨by rw [Restores, ofJson, text?], by rintro ⟨⟩⟩
  have required : orDefault (nullable? flag?) none none ((field.required.map .bool).map ofJson) =
      some field.required :=
    orDefault_nullable?_restores fun value _ => ⟨by rw [Restores, ofJson, flag?], by rintro ⟨⟩⟩
  simp only [Restores, Field.read?, parts, present, type, target, required, Option.bind_eq_bind,
    Option.bind_some, Option.pure_def]

/-- An object is read where the value is an object. -/
theorem Object.read?_eq_some_iff {limit : Limit} {document : Document} {object : Object} :
    Object.read? limit document = some object ↔ document.toJson? limit = some (.obj object) := by
  rw [Object.read?, Option.bind_eq_bind, Option.bind_eq_some_iff]
  constructor
  · rintro ⟨value, hvalue, members⟩
    cases value with
    | obj => exact hvalue.trans (congrArg (some ∘ Json.obj) (Option.some.inj members))
    | _ => cases members
  · exact fun h => ⟨.obj object, h, rfl⟩

/-- A dictionary restores if its values do. -/
theorem restores_dict {α : Type} {read : Reads α} {write : α → Json} {d : Dict α}
    (each : ∀ entry ∈ d.toList, Restores read write entry.2) :
    Restores (Dict.read? read) (fun d => .obj (d.map write)) d := by
  have entries : entries? read none (ofJson (.obj (d.map write))) = some d.toList := by
    rw [ofJson, ofMembers_eq, Dict.toList_map]
    have values : ((d.toList.map fun entry => (entry.1, write entry.2)).map fun entry =>
        (some entry.1, ofJson entry.2)).mapM (memberValue? (read none)) = some d.toList := by
      rw [List.map_map, mapM_eq_some_iff]
      refine List.forall₂_map_left_iff.mpr (List.forall₂_same.mpr fun entry mem => ?_)
      exact memberValue?_eq_some_iff.mpr ⟨rfl, each entry mem⟩
    exact values
  rw [Restores, Dict.read?, entries, Option.map_some, Dict.ofList_toList]

/-- **Classes.** A class that is written is read back, unless its permissions are the null value,
which stands for no permissions. -/
theorem ClassSchema.restores {cls : ClassSchema} (h : cls.permissions ≠ some .null) :
    Restores ClassSchema.read? ClassSchema.toJson cls := by
  have parts : record? ["className", "fields", "classLevelPermissions", "indexes"] none
      (ofJson cls.toJson) =
        some (none, [some (ofJson (.str cls.name)),
          some (ofJson (.obj (cls.fields.map Field.toJson))), cls.permissions.map ofJson,
          (cls.indexes.map fun indexes => .obj (indexes.map .obj)).map ofJson]) :=
    record?_ofPresent (by simp)
  have name : text? none (ofJson (.str cls.name)) = some cls.name := by rw [ofJson, text?]
  have fields : orDefault (Dict.read? Field.read?) ∅ none
      (some (ofJson (.obj (cls.fields.map Field.toJson)))) = some cls.fields :=
    restores_dict fun entry _ => entry.2.restores
  have permissions : orDefault (nullable? fun limit d => d.toJson? limit) none none
      (cls.permissions.map ofJson) = some cls.permissions := by
    have part := @orDefault_nullable?_restores Json (fun limit d => d.toJson? limit) id
      cls.permissions fun value mem => ⟨toJson?_ofJson value, fun null => h (null ▸ mem)⟩
    rwa [Option.map_id] at part
  have indexes : orDefault (nullable? (Dict.read? Object.read?)) none none
      ((cls.indexes.map fun indexes => .obj (indexes.map .obj)).map ofJson) = some cls.indexes := by
    refine orDefault_nullable?_restores fun indexes _ =>
      ⟨restores_dict fun entry _ => ?_, by rintro ⟨⟩⟩
    exact Object.read?_eq_some_iff.mpr (toJson?_ofJson (.obj entry.2))
  simp only [Restores, ClassSchema.read?, parts, present, name, fields, permissions,
    indexes, Option.bind_eq_bind, Option.bind_some, Option.pure_def]

/-- **Writable schemas.** Those that are read back when they are written. -/
structure Schema.Writable (schema : Schema) : Prop where
  /-- No two classes have the same name. -/
  distinct : schema.names.Nodup
  /-- No class has the null value as permissions. -/
  permissions : ∀ cls ∈ schema.classes, cls.permissions ≠ some .null

/-- **Schemas.** A writable schema that is written is read back. -/
theorem Schema.Writable.ofJson_toJson {schema : Schema} (writable : schema.Writable) :
    Schema.ofJson schema.toJson = .ok schema := by
  have classes : list? ClassSchema.read? none (.ofJson schema.toJson) = some schema.classes :=
    restores_list fun cls mem => ClassSchema.restores (writable.permissions cls mem)
  rw [Schema.ofJson, ofDocument, classes]
  exact ofClasses_eq_ok_iff.mpr ⟨writable.distinct, rfl⟩

/-! ### Writing what was read -/

/-- A dictionary of objects that is read is written as the value that the document has. -/
theorem toJson?_of_read? {limit : Limit} {document : Document} {objects : Dict Object}
    (h : Dict.read? Object.read? limit document = some objects) :
    document.toJson? none = some (.obj (objects.map .obj)) := by
  obtain ⟨entries, read, rfl⟩ := Option.map_eq_some_iff.mp h
  cases document with
  | obj members =>
    obtain ⟨inner, -, read⟩ := Option.bind_eq_some_iff.mp read
    have each := mapM_eq_some_iff.mp read
    refine toJson?_obj.mpr ⟨none, rfl, entries.map fun entry => (entry.1, .obj entry.2), ?_, ?_⟩
    · refine List.forall₂_map_right_iff.mpr (each.imp fun member entry read => ?_)
      obtain ⟨key, object⟩ := memberValue?_eq_some_iff.mp read
      exact ⟨key, toJson?_none_of_toJson? (Object.read?_eq_some_iff.mp object)⟩
    · rw [Dict.map_ofList]
  | _ => cases read

/-- The names of the parts of a class, in the order of a class that is written as a list. -/
def ClassSchema.parts : List String := ["className", "fields", "classLevelPermissions", "indexes"]

/-- What a class that is read carries is written as the value it has, unless that is null. -/
theorem ClassSchema.carried_of_read? {limit : Limit} {document : Document} {cls : ClassSchema}
    (h : ClassSchema.read? limit document = some cls) :
    cls.permissions =
        ((document.member? parts "classLevelPermissions").bind (toJson? none)).filter (· ≠ .null) ∧
      cls.indexes.map (fun indexes => .obj (indexes.map .obj)) =
        ((document.member? parts "indexes").bind (toJson? none)).filter (· ≠ .null) := by
  obtain ⟨⟨inner, held⟩, record, h⟩ := Option.bind_eq_some_iff.mp h
  obtain ⟨-, -, rfl⟩ := (record?_eq_some_iff (by decide)).mp record
  obtain ⟨name, -, h⟩ := Option.bind_eq_some_iff.mp h
  obtain ⟨fields, -, h⟩ := Option.bind_eq_some_iff.mp h
  obtain ⟨permissions, hpermissions, h⟩ := Option.bind_eq_some_iff.mp h
  obtain ⟨indexes, hindexes, ⟨⟩⟩ := Option.bind_eq_some_iff.mp h
  constructor
  · have part := @orDefault_nullable?_carries Json (fun limit d => d.toJson? limit) id _ _ _
      (fun document value ne read => ⟨toJson?_none_of_toJson? read, fun null =>
        ne (eq_null_of_toJson? (read.trans (congrArg some null)))⟩) hpermissions
    rwa [Option.map_id] at part
  · exact orDefault_nullable?_carries
      (fun document value _ read => ⟨toJson?_of_read? read, nofun⟩) hindexes

/-- **Carrying.** The value holds, as permissions and as indexes of a class, what was held before,
apart from the null value. -/
def ClassSchema.Carries (held : String → Option Json) (written : Json) : Prop :=
  ∃ members : Object, written = .obj members ∧
    ∀ name ∈ ["classLevelPermissions", "indexes"],
      members.get? name = (held name).filter (· ≠ .null)

/-- A class that is read is written with what it carries. -/
theorem ClassSchema.carries_of_read? {limit : Limit} {document : Document} {cls : ClassSchema}
    (h : ClassSchema.read? limit document = some cls) :
    Carries (fun name => (document.member? parts name).bind (Document.toJson? none))
      cls.toJson := by
  obtain ⟨permissions, indexes⟩ := carried_of_read? h
  refine ⟨_, rfl, fun name mem => ?_⟩
  rcases List.mem_pair.mp mem with rfl | rfl
  · exact (Dict.get?_ofPresent (by simp) (by simp)).trans permissions
  · exact (Dict.get?_ofPresent (by simp) (by simp)).trans indexes

/-- A schema that is read has the classes that the items of a list are read as. -/
theorem Schema.classes_of_ofDocument {limit : Limit} {document : Document} {schema : Schema}
    (h : Schema.ofDocument limit document = .ok schema) :
    ∃ items inner, document = .arr items ∧
      List.Forall₂ (fun item cls => ClassSchema.read? inner item = some cls) items
        schema.classes := by
  unfold ofDocument at h
  split at h
  · next classes read =>
    obtain ⟨-, rfl⟩ := ofClasses_eq_ok_iff.mp h
    cases document with
    | arr items =>
      obtain ⟨inner, -, each⟩ := Option.bind_eq_some_iff.mp read
      exact ⟨items, inner, rfl, mapM_eq_some_iff.mp each⟩
    | _ => cases read
  · cases h

/-- A schema that is read is written with what its classes carry. -/
theorem Schema.carries_of_ofDocument {limit : Limit} {document : Document} {schema : Schema}
    (h : Schema.ofDocument limit document = .ok schema) :
    ∃ items written, document = .arr items ∧ schema.toJson = .arr written ∧
      List.Forall₂ (fun item => ClassSchema.Carries fun name =>
        (item.member? ClassSchema.parts name).bind (toJson? none)) items written := by
  obtain ⟨items, inner, rfl, each⟩ := classes_of_ofDocument h
  refine ⟨items, schema.classes.map ClassSchema.toJson, rfl, rfl, ?_⟩
  exact List.forall₂_map_right_iff.mpr (each.imp fun _ _ => ClassSchema.carries_of_read?)

/-- A schema that is read is writable. -/
theorem Schema.writable_of_ofDocument {limit : Limit} {document : Document} {schema : Schema}
    (h : Schema.ofDocument limit document = .ok schema) : schema.Writable := by
  obtain ⟨items, inner, rfl, each⟩ := classes_of_ofDocument h
  -- The null value was filtered out when the permissions were read.
  have notNull {item : Document} {cls : ClassSchema}
      (read : ClassSchema.read? inner item = some cls) : cls.permissions ≠ some .null := by
    rw [(ClassSchema.carried_of_read? read).1]
    intro null
    exact of_decide_eq_true (Option.filter_eq_some_iff.mp null).2 rfl
  refine ⟨nodup_of_ofDocument h, ?_⟩
  exact (List.forall₂_and_left schema.classes items).mp
    (each.flip.imp fun cls item read => ⟨notNull read, read⟩) |>.1

/-! ### Schemas that are written and read again -/

/-- **Built classes.** A class without fields, permissions and indexes, and fields of a type that
are added to it. -/
inductive ClassSchema.Built : ClassSchema → Prop
  /-- A class of no fields. -/
  | new (name : String) : Built { name }
  /-- A field that is replaced or added. -/
  | withField {cls : ClassSchema} (built : cls.Built) (name : String) (type : FieldType)
      (targetClass : Option String) : Built (cls.withField name (.ofType type targetClass))

theorem ClassSchema.Built.permissions {cls : ClassSchema} (built : cls.Built) :
    cls.permissions = none := by
  induction built with
  | new => rfl
  | withField _ _ _ _ ih => exact ih

/-- **Obtained schemas.** What is read from a text or a value, and classes that are built and
appended. -/
inductive Schema.Obtained : Schema → Prop
  /-- No class. -/
  | empty : Obtained ∅
  /-- A schema that is read from a text. -/
  | ofText {text : String} {schema : Schema} (read : Schema.ofText text = .ok schema) :
      Obtained schema
  /-- A schema that is read from a value. -/
  | ofJson {value : Json} {schema : Schema} (read : Schema.ofJson value = .ok schema) :
      Obtained schema
  /-- One more class. -/
  | addClass {schema schema' : Schema} {cls : ClassSchema} (obtained : schema.Obtained)
      (built : cls.Built) (added : schema.addClass cls = .ok schema') : Obtained schema'

/-- A schema that is obtained is writable. -/
theorem Schema.Obtained.writable {schema : Schema} (obtained : schema.Obtained) :
    schema.Writable := by
  induction obtained with
  | empty => exact ⟨List.nodup_nil, nofun⟩
  | @ofText text schema read =>
    unfold Schema.ofText at read
    split at read
    · exact writable_of_ofDocument read
    · cases read
  | ofJson read => exact writable_of_ofDocument read
  | addClass _ built added ih =>
    obtain ⟨distinct, rfl⟩ := ofClasses_eq_ok_iff.mp added
    refine ⟨distinct, fun cls mem => ?_⟩
    rcases List.mem_append.mp mem with earlier | new
    · exact ih.permissions cls earlier
    · rw [List.mem_singleton.mp new, built.permissions]
      exact nofun

/-- **Schemas survive writing.** A schema that is obtained is read back when it is written, and
what the classes of a text or a value hold as permissions and as indexes is written as it was, apart
from the null value. -/
theorem Schema.survives_writing :
    (∀ schema : Schema, schema.Obtained → Schema.ofJson schema.toJson = .ok schema) ∧
    (∀ (text : String) (schema : Schema), Schema.ofText text = .ok schema →
      ∃ items written, Document.ofText? text = some (.arr items) ∧
        schema.toJson = .arr written ∧
        List.Forall₂ (fun item => ClassSchema.Carries fun name =>
          (item.member? ClassSchema.parts name).bind (toJson? none)) items written) ∧
    ∀ (value : Json) (schema : Schema), Schema.ofJson value = .ok schema →
      ∃ items written, value = .arr items ∧ schema.toJson = .arr written ∧
        List.Forall₂ (fun item => ClassSchema.Carries fun name =>
          item.member? ClassSchema.parts name) items written := by
  refine ⟨fun schema obtained => obtained.writable.ofJson_toJson, fun text schema read => ?_,
    fun value schema read => ?_⟩
  · unfold Schema.ofText at read
    split at read
    · next document text =>
      obtain ⟨items, written, rfl, rest⟩ := carries_of_ofDocument read
      exact ⟨items, written, text, rest⟩
    · cases read
  · obtain ⟨documents, written, document, eq, each⟩ := carries_of_ofDocument read
    cases value with
    | arr items =>
      rw [Document.ofJson, ofItems_eq] at document
      cases document
      have each := List.forall₂_map_left_iff.mp each
      simp only [toJson?_member?_ofJson] at each
      exact ⟨items, written, rfl, eq, each⟩
    | _ => rw [Document.ofJson] at document; cases document

/-- A text of two classes. The first is a list and has a field of an unknown type, the second has
a member that is not known. -/
def mixedText : String :=
  "[[\"Task\", \x7b\"at\": [\"Vector\"]\x7d, [7]],
    \x7b\"className\": \"Note\", \"more\": 2, \"indexes\": \x7b\"i\": \x7b\x7d\x7d\x7d]"

/-- A class with a field that refers to another class. -/
def projectClass : ClassSchema := .withField { name := "Project" } "at" (.ofType .pointer "Place")

/-- The schema of the two classes of the text and of the third, as it is written. -/
def mixedWritten : Json := .arr [
  .obj (.ofList [
    ("className", .str "Task"),
    ("fields", .obj (.singleton "at" (.obj (.singleton "type" (.str "Unknown"))))),
    ("classLevelPermissions", .arr [.num (.int 7)])]),
  .obj (.ofList [
    ("className", .str "Note"),
    ("fields", .obj ∅),
    ("indexes", .obj (.singleton "i" (.obj ∅)))]),
  .obj (.ofList [
    ("className", .str "Project"),
    ("fields", .obj (.singleton "at"
      (.obj (.ofList [("type", .str "Pointer"), ("targetClass", .str "Place")]))))])]

/-- The schema of the text and the class survives writing. -/
theorem Schema.survives_writing_mixedText :
    ∃ read schema : Schema, Schema.ofText mixedText = .ok read ∧
      read.addClass projectClass = .ok schema ∧ schema.toJson = mixedWritten ∧
      Schema.ofJson mixedWritten = .ok schema ∧
      ∃ items written, Document.ofText? mixedText = some (.arr items) ∧
        read.toJson = .arr written ∧
        List.Forall₂ (fun item => ClassSchema.Carries fun name =>
          (item.member? ClassSchema.parts name).bind (toJson? none)) items written := by
  have obtained : Schema.toJson <$> (Schema.ofText mixedText >>= (·.addClass projectClass)) =
      .ok mixedWritten := by decide +kernel
  obtain ⟨schema, steps, written⟩ := Except.map_eq_ok_iff.mp obtained
  obtain ⟨read, text, added⟩ := Except.bind_eq_ok_iff.mp steps
  have built : projectClass.Built := .withField (.new "Project") "at" .pointer (some "Place")
  refine ⟨read, schema, text, added, written, ?_, Schema.survives_writing.2.1 mixedText read text⟩
  exact written ▸ Schema.survives_writing.1 schema (.addClass (.ofText text) built added)

end FilterQuery
