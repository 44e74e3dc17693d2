import FilterQuery.Json.Basic
import FilterQuery.Lowering.Run
import FilterQuery.Options

/-!
# Identifiers in filters

Under `id`, a filter on a class gives encoded identifiers. Lowering moves the conditions to
`objectId` and replaces each identifier of the class by its local id, in operands and in lists of
operands. An identifier of another class is kept, and a string that is no identifier is kept or
refused, as the policy says.
-/

namespace FilterQuery

namespace Lowering

/-- The field that a filter puts conditions on identifiers under. -/
def idField : String := "id"

/-- The key that a query puts conditions on local ids under. -/
def objectIdKey : String := "objectId"

/-- Does the field hold identifiers? It takes a class to tell which ones are meant. -/
def isIdField (cls field : String) : Bool := field == idField && cls != ""

/-- The key under which the conditions of a field end up that would otherwise end up under the
given key. -/
def outputKey (cls field key : String) : String := if isIdField cls field then objectIdKey else key

/-- **Identifiers.** The local id of an identifier of the class. -/
def localId (codec : Codec) (policy : IdentifierPolicy) (cls encoded : String) : Run String :=
  match codec.decode encoded with
  | .ok identifier => match identifier.localId? cls with
    | some id => pure id
    | none => do
      Run.emit (.foreignKept identifier.type cls)
      pure encoded
  | .error cause => match policy with
    | .lenient => do
      Run.emit (.undecodableKept encoded cause)
      pure encoded
    | .strict => Run.fail (.invalidIdentifier encoded cause)

/-- An element of a list of identifiers. -/
def localItem (codec : Codec) (policy : IdentifierPolicy) (cls : String) : Json → Run Json
  | .str encoded => .str <$> localId codec policy cls encoded
  | value => pure value

/-- An operand under `id`: an identifier, or a list of them. -/
def localOperand (codec : Codec) (policy : IdentifierPolicy) (cls : String) : Json → Run Json
  | .str encoded => .str <$> localId codec policy cls encoded
  | .arr items => .arr <$> items.mapM (localItem codec policy cls)
  | value => pure value

/-- The conditions under `id`. -/
def localConditions (codec : Codec) (policy : IdentifierPolicy) (cls : String)
    (conditions : List (String × Json)) : Run (List (String × Json)) :=
  conditions.mapM fun condition => do
    return (condition.1, ← localOperand codec policy cls condition.2)

end Lowering

end FilterQuery
