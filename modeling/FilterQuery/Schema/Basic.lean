import FilterQuery.Json.Basic

/-!
# Schemas

A schema lists the classes of a database, and a class lists its fields. Lowering asks it one
question, `Schema.field?`: what is known about a field of a class. The other parts are carried.

Class names must not repeat; `Schema.ofClasses` checks that, and names the first class that
repeats an earlier one.
-/

namespace FilterQuery

/-! ### Fields -/

/-- **Field types.** -/
inductive FieldType
  | string
  | number
  | boolean
  | date
  | object
  | array
  | geoPoint
  | polygon
  | file
  | bytes
  | acl
  | pointer
  | relation
  /-- Any type that is not known here. -/
  | unknown
deriving DecidableEq, Repr

namespace FieldType

/-- The written form of a type. -/
def tag : FieldType → String
  | string => "String"
  | number => "Number"
  | boolean => "Boolean"
  | date => "Date"
  | object => "Object"
  | array => "Array"
  | geoPoint => "GeoPoint"
  | polygon => "Polygon"
  | file => "File"
  | bytes => "Bytes"
  | acl => "ACL"
  | pointer => "Pointer"
  | relation => "Relation"
  | unknown => "Unknown"

/-- The types that are known. -/
def known : List FieldType :=
  [string, number, boolean, date, object, array, geoPoint, polygon, file, bytes, acl, pointer,
    relation]

/-- The type of a written form; any other text is an unknown type. -/
def ofTag (tag : String) : FieldType := (known.find? (·.tag = tag)).getD unknown

/-- A written type is read back. -/
@[simp]
theorem ofTag_tag (type : FieldType) : ofTag type.tag = type := by cases type <;> decide

/-- Does a field of the type refer to objects of another class? -/
def isReference : FieldType → Bool
  | pointer | relation => true
  | _ => false

end FieldType

/-- **Fields.** What a schema knows about a field. -/
structure Field where
  /-- The type. -/
  type : FieldType
  /-- The class that a reference refers to. -/
  targetClass : Option String := none
  /-- Must objects of the class have the field? -/
  required : Option Bool := none
deriving DecidableEq, Repr

/-- Does the field refer to objects of another class? -/
def Field.isReference (field : Field) : Bool := field.type.isReference

/-- The field of a type that refers, if its type does refer and a class is given, to the class. -/
def Field.ofType (type : FieldType) (targetClass : Option String) : Field :=
  { type, targetClass := if type.isReference then targetClass else none }

/-! ### Classes -/

/-- **Classes.** What a schema knows about a class. -/
structure ClassSchema where
  /-- The name. -/
  name : String
  /-- The fields by their names. -/
  fields : Dict Field := ∅
  /-- Permissions, which are only carried. -/
  permissions : Option Json := none
  /-- Indexes, which are only carried. -/
  indexes : Option (Dict Object) := none

/-- The class with one field replaced or added. -/
def ClassSchema.withField (cls : ClassSchema) (name : String) (field : Field) : ClassSchema :=
  { cls with fields := cls.fields.insert name field }

/-- **Schemas.** The classes in their order. -/
structure Schema where
  /-- The classes. -/
  classes : List ClassSchema := []

/-- **Schema errors.** Why there is no schema. -/
inductive SchemaError
  /-- The document has not the form of a schema. -/
  | malformed
  /-- A class has the name of an earlier one. -/
  | duplicateClass (name : String)
deriving DecidableEq, Repr

namespace Schema

instance : EmptyCollection Schema := ⟨{}⟩

instance : Inhabited Schema := ⟨∅⟩

/-- The class of a name. -/
def class? (schema : Schema) (name : String) : Option ClassSchema :=
  schema.classes.find? (·.name = name)

/-- The field of a class. -/
def field? (schema : Schema) (cls field : String) : Option Field := do
  (← schema.class? cls).fields.get? field

/-- The field of a class, if it refers to objects of another class. -/
def reference? (schema : Schema) (cls field : String) : Option Field :=
  (schema.field? cls field).filter Field.isReference

/-- The names of the classes in their order. -/
def names (schema : Schema) : List String := schema.classes.map ClassSchema.name

/-! ### Building a schema -/

/-- The first name that repeats one before it, or one of the names already seen. -/
def firstRepeated? (seen : List String) : List String → Option String
  | [] => none
  | name :: names => if name ∈ seen then some name else firstRepeated? (name :: seen) names

/-- **Building.** The schema of a list of classes, whose names must not repeat. -/
def ofClasses (classes : List ClassSchema) : Except SchemaError Schema :=
  match firstRepeated? [] (classes.map ClassSchema.name) with
  | some name => .error (.duplicateClass name)
  | none => .ok ⟨classes⟩

/-- The schema with one more class at the end. -/
def addClass (schema : Schema) (cls : ClassSchema) : Except SchemaError Schema :=
  ofClasses (schema.classes ++ [cls])

end Schema

/-- The error in words; a malformed document has no words of its own. -/
def SchemaError.message? : SchemaError → Option String
  | .malformed => none
  | .duplicateClass name => some s!"Duplicate class '{name}' in schema snapshot"

end FilterQuery
