import FilterQuery.Geo
import FilterQuery.Lowering.Edit
import FilterQuery.Lowering.References

/-!
# Lowering filters

A filter is an object whose entries must all hold. `Lowering.lower` turns it into a query.

* The entry of a combinator holds a list of filters, each of which is lowered.
* Every other entry is a field with its conditions. A value that is no object is the condition of
  being equal to it and is kept.
* A condition is a name and an operand. Names of operators become their targets. An operand that
  is an object is lowered as conditions again, or as a filter if its name is `where`.
* A condition with a pair as operand moves to the dotted path of the field and the path of the
  pair. A field with such a condition leaves nothing under its own key.
* Geographic operands are encoded first (`FilterQuery.Geo`), identifiers are decoded first
  (`FilterQuery.Lowering.Identifiers`), and fields that refer to other objects have rules of
  their own (`FilterQuery.Lowering.References`).

Filters and conditions nest, each within the other. `filterAt` and `fieldAt` recurse on the number
of levels that may still be entered, which starts as the limit of the context.
-/

namespace FilterQuery

/-- **Contexts.** What a lowering takes as given. -/
structure Context where
  /-- The schema that fields are looked up in. -/
  schema : Schema
  /-- The codec that identifiers are decoded with. -/
  codec : Codec
  /-- What to do with identifiers that cannot be decoded. -/
  policy : IdentifierPolicy
  /-- How many objects of a filter may nest. -/
  limit : Nat

namespace Lowering

/-- **Levels below.** The lowering of a filter for a class, and the lowering of the conditions of
a field of a class, whose result goes to a key. -/
structure Below where
  /-- Lowers a filter. -/
  filter : (cls : String) → Object → Run Object
  /-- Lowers the conditions of a field. -/
  field : (cls field key : String) → Object → Run (List Edit)

/-- Lowers a value where a filter is expected; a value that is no object is kept. -/
def Below.value (below : Below) (cls : String) : Json → Run Json
  | .obj filter => .obj <$> below.filter cls filter
  | value => pure value

/-! ### Conditions -/

/-- **Parts.** What one condition of a field gives. -/
inductive Part
  /-- Edits of the object of the field. -/
  | own (edits : List Edit)
  /-- A condition for a dotted path, under an operator. -/
  | dotted (path target : String) (value : Json)
  /-- The operand of the verb `exists` of a reference. -/
  | presence (flag : Json)

namespace Part

/-- The edits of the object of the field. -/
def ownEdits : Part → List Edit
  | .own edits => edits
  | _ => []

/-- The edits of the object around the field. -/
def dottedEdits : Part → List Edit
  | .dotted path target value => [.merge path (.singleton target value)]
  | _ => []

/-- The operand of the verb `exists`. -/
def presence? : Part → Option Json
  | .presence flag => some flag
  | _ => none

end Part

/-- The pair that an operand is, as far as the field can have dotted paths: the empty name has
none. -/
def pairUnder? (field : String) (operand : Operand) : Option PathPair :=
  if field = "" then none else operand.pair?

/-- A condition of a field that refers to other objects. -/
def referencePart (below : Below) (field : String) (reference : Field) (name : String)
    (operand : Json) : Run Part :=
  match RelationVerb.ofName? name, Operator.ofName? name with
  | some .presence, _ => pure (.presence operand)
  | some .matching, _ => do
    let value ← expand below.value field .inQuery reference operand
    return .own [.set Operator.inQuery.target value]
  | some .notMatching, _ => do
    let value ← expand below.value field .notInQuery reference operand
    return .own [.set Operator.notInQuery.target value]
  | none, some operator => pure (.own [.set operator.target operand])
  | none, none =>
    if name = whereKey ∨ name = notWhereKey then do
      return .own [.set name (← lowerFor below.value reference operand)]
    else do
      Run.emit (.keyDropped name field)
      return .own []

/-- A condition of a field that holds plain values. -/
def plainPart (below : Below) (cls name : String) (operand : Operand) : Run Part :=
  let target := targetKey name
  match Geo.encode (Operator.ofName? name) operand with
  | .obj nested =>
    if name = whereKey then do
      return .own [.set target (.obj (← below.filter cls nested))]
    else do
      return .own (← below.field cls name target nested)
  | value => pure (.own [.set target value])

/-- **Conditions.** Lowers one condition of a field. -/
def part (cx : Context) (below : Below) (cls field name : String) (operand : Json) : Run Part :=
  match pairUnder? field (.ofJson operand) with
  | some pair => do
    let path := field ++ "." ++ pair.path
    Run.emit (.pathFlattened (targetKey name) path)
    return .dotted path (targetKey name) pair.value
  | none => match cx.schema.reference? cls field with
    | some reference => referencePart below field reference name operand
    | none => plainPart below cls name (.ofJson operand)

/-! ### Fields -/

/-- The conditions of a field, with local ids in place of identifiers if the field holds them. -/
def conditions (cx : Context) (cls field : String) (operands : Object) :
    Run (List (String × Json)) :=
  if isIdField cls field then do
    Run.emit (.idMoved cls)
    localConditions cx.codec cx.policy cls operands.toList
  else pure operands.toList

/-- The object of a field, from the parts of its conditions. -/
def assemble (cx : Context) (cls field : String) (parts : List Part) : Run Object :=
  let lowered := Edit.build (parts.flatMap Part.ownEdits)
  match cx.schema.reference? cls field, parts.findSome? Part.presence? with
  | some reference, some flag => applyPresence field reference flag lowered
  | _, _ => pure lowered

/-- **Fields.** Lowers the conditions of a field to edits of the object around it. -/
def fieldStep (cx : Context) (below : Below) (cls field key : String) (operands : Object) :
    Run (List Edit) := do
  Run.emit (.fieldEntered field cls)
  let entries ← conditions cx cls field operands
  let parts ← entries.mapM fun entry => part cx below cls field entry.1 entry.2
  let lowered ← assemble cx cls field parts
  match parts.flatMap Part.dottedEdits with
  | [] => return [.merge (outputKey cls field key) lowered]
  | dotted => do
    Run.emit (.fieldDropped field)
    return dotted

/-! ### Filters -/

/-- The operand of a combinator. -/
def branches (below : Below) (cls : String) (combinator : Combinator) : Json → Run Json
  | .arr items => .arr <$> items.mapM (below.value cls)
  | value => do
    Run.emit (.branchesKept combinator)
    return value

/-- **Entries.** Lowers one entry of a filter. -/
def entryStep (below : Below) (cls key : String) (value : Json) : Run (List Edit) :=
  match Combinator.ofName? key with
  | some combinator => do
    return [.set combinator.target (← branches below cls combinator value)]
  | none => match value with
    | .obj operands => below.field cls key key operands
    | literal => pure [.set (outputKey cls key key) literal]

/-- **Filters.** Lowers the entries of a filter. -/
def filterStep (below : Below) (cls : String) (filter : Object) : Run Object := do
  let edits ← filter.toList.mapM fun entry => entryStep below cls entry.1 entry.2
  return Edit.build edits.flatten

/-! ### Levels -/

mutual

/-- Lowers a filter that may enter the given number of levels. -/
def filterAt (cx : Context) : Nat → String → Object → Run Object
  | 0, _, _ => Run.fail (.depthExceeded cx.limit)
  | levels + 1, cls, filter => filterStep ⟨filterAt cx levels, fieldAt cx levels⟩ cls filter

/-- Lowers the conditions of a field that may enter the given number of levels. -/
def fieldAt (cx : Context) : Nat → String → String → String → Object → Run (List Edit)
  | 0, _, _, _, _ => Run.fail (.depthExceeded cx.limit)
  | levels + 1, cls, field, key, operands =>
    fieldStep cx ⟨filterAt cx levels, fieldAt cx levels⟩ cls field key operands

end

/-- The levels below a number of levels that may be entered. -/
def belowAt (cx : Context) (levels : Nat) : Below := ⟨filterAt cx levels, fieldAt cx levels⟩

/-- No level may be entered. -/
theorem filterAt_zero (cx : Context) (cls : String) (filter : Object) :
    filterAt cx 0 cls filter = Run.fail (.depthExceeded cx.limit) := rfl

/-- A filter takes one level and leaves the others to its entries. -/
theorem filterAt_succ (cx : Context) (levels : Nat) (cls : String) (filter : Object) :
    filterAt cx (levels + 1) cls filter = filterStep (belowAt cx levels) cls filter := rfl

/-- No level may be entered. -/
theorem fieldAt_zero (cx : Context) (cls field key : String) (operands : Object) :
    fieldAt cx 0 cls field key operands = Run.fail (.depthExceeded cx.limit) := rfl

/-- The conditions of a field take one level and leave the others to their operands. -/
theorem fieldAt_succ (cx : Context) (levels : Nat) (cls field key : String) (operands : Object) :
    fieldAt cx (levels + 1) cls field key operands =
      fieldStep cx (belowAt cx levels) cls field key operands := rfl

/-- **Lowering.** The query of a filter for a class; an input that is no object is kept. -/
def lower (cx : Context) (cls : String) (input : Json) : Run Json :=
  (belowAt cx cx.limit).value cls input

end Lowering

/-- The context of a schema, a codec and options. -/
def Context.of (schema : Schema) (codec : Codec) (options : Options) : Context :=
  ⟨schema, codec, options.policy, options.maxDepth⟩

end FilterQuery
