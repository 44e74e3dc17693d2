import FilterQuery.Json.Basic
import FilterQuery.Json.Token

/-!
# JSON documents

A `Document` is a JSON text as it was written: members stand in their order and repeated keys
are kept. `Document.ofText?` reads one with a stack of open lists and objects, so that nesting
costs no recursion.

`Document.toJson?` gives the value. It refuses numbers and strings without a value, and nesting
beyond a limit, if one is given; of a repeated key the last member counts. `Document.ofJson` is
the document that writes a value.
-/

namespace FilterQuery

/-- **Documents.** JSON as written. -/
inductive Document
  /-- The null value. -/
  | null
  /-- A boolean. -/
  | bool (value : Bool)
  /-- A number, with its value if it is in range. -/
  | num (value : Option Number)
  /-- A string, with its value if it is Unicode text. -/
  | str (value : Option String)
  /-- A list. -/
  | arr (items : List Document)
  /-- An object: keys, with their text if it is Unicode text, and values. -/
  | obj (members : List (Option String × Document))

namespace Document

instance : Inhabited Document := ⟨.null⟩

/-! ### Reading -/

/-- A list or an object in progress, its finished parts last first. -/
inductive Frame
  /-- A list. -/
  | items (done : List Document)
  /-- An object, with the key whose value comes next. -/
  | members (done : List (Option String × Document)) (key : Option String)

/-- **Reader states.** What must come next, and the open lists and objects around it. -/
inductive Reader
  /-- A value. -/
  | value (stack : List Frame)
  /-- A value or the end of a list that was just opened. -/
  | firstItem (stack : List Frame)
  /-- A comma or the end of the list. -/
  | itemEnd (done : List Document) (stack : List Frame)
  /-- A key or the end of an object that was just opened. -/
  | firstKey (stack : List Frame)
  /-- A key. -/
  | key (done : List (Option String × Document)) (stack : List Frame)
  /-- The colon after a key. -/
  | colon (done : List (Option String × Document)) (key : Option String) (stack : List Frame)
  /-- A comma or the end of the object. -/
  | memberEnd (done : List (Option String × Document)) (stack : List Frame)
  /-- Nothing: the document is complete. -/
  | complete (document : Document)

/-- Hands a finished value to the innermost open list or object. -/
def close (value : Document) : List Frame → Reader
  | [] => .complete value
  | .items done :: stack => .itemEnd (value :: done) stack
  | .members done key :: stack => .memberEnd ((key, value) :: done) stack

/-- Reads the first token of a value. -/
def begin? (stack : List Frame) : Token → Option Reader
  | .null => some (close .null stack)
  | .bool value => some (close (.bool value) stack)
  | .num value => some (close (.num value) stack)
  | .str value => some (close (.str value) stack)
  | .openList => some (.firstItem stack)
  | .openObject => some (.firstKey stack)
  | _ => none

/-- Reads one token. -/
def Reader.step : Reader → Token → Option Reader
  | .value stack, token => begin? stack token
  | .firstItem stack, .closeList => some (close (.arr []) stack)
  | .firstItem stack, token => begin? (.items [] :: stack) token
  | .itemEnd done stack, .comma => some (.value (.items done :: stack))
  | .itemEnd done stack, .closeList => some (close (.arr done.reverse) stack)
  | .firstKey stack, .closeObject => some (close (.obj []) stack)
  | .firstKey stack, .str name => some (.colon [] name stack)
  | .key done stack, .str name => some (.colon done name stack)
  | .colon done name stack, .colon => some (.value (.members done name :: stack))
  | .memberEnd done stack, .comma => some (.key done stack)
  | .memberEnd done stack, .closeObject => some (close (.obj done.reverse) stack)
  | _, _ => none

/-- **Reading.** The document that a text writes, if it is a JSON text. -/
def ofText? (text : String) : Option Document := do
  match ← (← Token.ofText? text).foldlM Reader.step (.value []) with
  | .complete document => some document
  | _ => none

/-! ### Nesting limits -/

/-- How many more lists and objects may be open; absent, any number. -/
abbrev Limit := Option Nat

/-- The limit that texts from outside are read with. -/
def textLimit : Limit := some 127

/-- The limit inside one more list or object, if that is still allowed. -/
def Limit.enter? : Limit → Option Limit
  | none => some none
  | some 0 => none
  | some (n + 1) => some (some n)

/-! ### Values -/

mutual

/-- **Values.** The value that a document writes, if all its parts have values and it nests no
deeper than the limit. -/
def toJson? (limit : Limit) : Document → Option Json
  | .null => some .null
  | .bool value => some (.bool value)
  | .num value => value.map .num
  | .str value => value.map .str
  | .arr items => do return .arr (← itemsToJson? (← limit.enter?) items)
  | .obj members => do return .obj (.ofList (← membersToJson? (← limit.enter?) members))

/-- The values of the items of a list. -/
def itemsToJson? (limit : Limit) : List Document → Option (List Json)
  | [] => some []
  | item :: items => do return (← item.toJson? limit) :: (← itemsToJson? limit items)

/-- The keys and values of the members of an object. -/
def membersToJson? (limit : Limit) :
    List (Option String × Document) → Option (List (String × Json))
  | [] => some []
  | (key, value) :: members => do
    return (← key, ← value.toJson? limit) :: (← membersToJson? limit members)

end

mutual

/-- The document that writes a value. -/
def ofJson : Json → Document
  | .null => .null
  | .bool value => .bool value
  | .num value => .num (some value)
  | .str value => .str (some value)
  | .arr items => .arr (ofItems items)
  | .obj members => .obj (ofMembers members)

/-- The documents that write the elements of a list. -/
def ofItems : List Json → List Document
  | [] => []
  | item :: items => ofJson item :: ofItems items

/-- The members that write the members of an object. -/
def ofMembers {bound : Option String} : Dict Json bound → List (Option String × Document)
  | .nil => []
  | .cons key _ value rest => (some key, ofJson value) :: ofMembers rest

end

end Document

/-- The value that a text writes, if it is a JSON text that nests no deeper than the limit. -/
def Json.ofText? (limit : Document.Limit) (text : String) : Option Json := do
  (← Document.ofText? text).toJson? limit

end FilterQuery
