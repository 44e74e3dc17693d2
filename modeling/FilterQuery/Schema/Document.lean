import FilterQuery.Json.Record
import FilterQuery.Schema.Basic

/-!
# Schemas as JSON

A schema is a list of classes. `Schema.ofDocument` reads one and `Schema.toJson` writes one;
absent parts are not written, and the fields of a class always are.
-/

namespace FilterQuery

open Document

/-! ### Reading -/

/-- Reads a field type. -/
def FieldType.read? : Reads FieldType := fun limit document =>
  (tag? limit document).map FieldType.ofTag

/-- Reads a field. -/
def Field.read? : Reads Field := fun limit document => do
  match ← record? ["type", "targetClass", "required"] limit document with
  | (inner, [type, targetClass, isRequired]) =>
    return {
      type := ← present FieldType.read? inner type
      targetClass := ← orDefault (nullable? text?) none inner targetClass
      required := ← orDefault (nullable? flag?) none inner isRequired }
  | _ => none

/-- Reads an object of any members. -/
def Object.read? : Reads Object := fun limit document => do
  (← document.toJson? limit).members?

/-- Reads a dictionary; of a repeated key the last entry counts. -/
def Dict.read? {α : Type} (value : Reads α) : Reads (Dict α) := fun limit document =>
  (entries? value limit document).map Dict.ofList

/-- Reads a class. -/
def ClassSchema.read? : Reads ClassSchema := fun limit document => do
  match ← record? ["className", "fields", "classLevelPermissions", "indexes"] limit document with
  | (inner, [name, fields, permissions, indexes]) =>
    return {
      name := ← present text? inner name
      fields := ← orDefault (Dict.read? Field.read?) ∅ inner fields
      permissions := ← orDefault (nullable? fun limit d => d.toJson? limit) none inner permissions
      indexes := ← orDefault (nullable? (Dict.read? Object.read?)) none inner indexes }
  | _ => none

namespace Schema

/-- **Reading.** The schema that a document writes. -/
def ofDocument (limit : Limit) (document : Document) : Except SchemaError Schema :=
  match list? ClassSchema.read? limit document with
  | some classes => ofClasses classes
  | none => .error .malformed

/-- The schema that a value writes. -/
def ofJson (value : Json) : Except SchemaError Schema := ofDocument none (.ofJson value)

/-- The schema that a text writes. -/
def ofText (text : String) : Except SchemaError Schema :=
  match Document.ofText? text with
  | some document => ofDocument textLimit document
  | none => .error .malformed

end Schema

/-! ### Writing -/

/-- Writes a field. -/
def Field.toJson (field : Field) : Json :=
  .obj (.ofPresent [
    ("type", some (.str field.type.tag)),
    ("targetClass", field.targetClass.map .str),
    ("required", field.required.map .bool)])

/-- Writes a class. -/
def ClassSchema.toJson (cls : ClassSchema) : Json :=
  .obj (.ofPresent [
    ("className", some (.str cls.name)),
    ("fields", some (.obj (cls.fields.map Field.toJson))),
    ("classLevelPermissions", cls.permissions),
    ("indexes", cls.indexes.map fun indexes => .obj (indexes.map .obj))])

/-- **Writing.** The classes in their order. -/
def Schema.toJson (schema : Schema) : Json := .arr (schema.classes.map ClassSchema.toJson)

end FilterQuery
