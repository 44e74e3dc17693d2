import FilterQuery.Json.Document

/-!
# Reading records

A record has members of fixed names. A document writes it as an object, where unknown members are
skipped without a look at their values and a known one must not be repeated, or as a list of the
first members in the order of the names.

A reader takes a nesting limit and a document and answers `none` when the document has not the
expected form. Readers for optional parts take the null value as absent.
-/

namespace FilterQuery

/-- **Readers.** What a document of an expected form stands for. -/
abbrev Document.Reads (α : Type) := Document.Limit → Document → Option α

namespace Document

variable {α : Type}

/-! ### Members -/

/-- The member of a name, which must not be repeated: `none` if it is, `some none` if there is no
such member. -/
def uniqueMember? (members : List (Option String × Document)) (name : String) :
    Option (Option Document) :=
  match members.filter (·.1 = some name) with
  | [] => some none
  | [member] => some (some member.2)
  | _ => none

/-- **Records.** The members of the given names, and the limit inside the record. -/
def record? (names : List String) : Reads (Limit × List (Option Document))
  | limit, .arr items => do
    let inner ← limit.enter?
    if items.length ≤ names.length then
      some (inner, items.map some ++ List.replicate (names.length - items.length) none)
    else none
  | limit, .obj members => do
    let inner ← limit.enter?
    if members.all (·.1.isSome) then some (inner, ← names.mapM (uniqueMember? members))
    else none
  | _, _ => none

/-- **Entries.** The keys and values of an object, in the order of the document. -/
def entries? (value : Reads α) : Reads (List (String × α))
  | limit, .obj members => do
    let inner ← limit.enter?
    members.mapM fun member => do return (← member.1, ← value inner member.2)
  | _, _ => none

/-- **Lists.** The elements of a list. -/
def list? (item : Reads α) : Reads (List α)
  | limit, .arr items => do
    let inner ← limit.enter?
    items.mapM (item inner)
  | _, _ => none

/-! ### Parts -/

/-- A string. -/
def text? : Reads String
  | _, .str value => value
  | _, _ => none

/-- A boolean. -/
def flag? : Reads Bool
  | _, .bool value => some value
  | _, _ => none

/-- A natural number of 64 bits. -/
def count? : Reads Nat
  | _, .num (some (.int value)) =>
    if 0 ≤ value ∧ value < UInt64.size then some value.toNat else none
  | _, _ => none

/-- A tag: a string, or an object whose only member has the tag as key and the null value. -/
def tag? : Reads String
  | _, .str value => value
  | limit, .obj [(key, .null)] => do
    let _ ← limit.enter?
    key
  | _, _ => none

/-- A part that may be null. -/
def nullable? (value : Reads α) : Reads (Option α)
  | _, .null => some none
  | limit, document => (value limit document).map some

/-- A part that may be missing, with the value it has then. -/
def orDefault (value : Reads α) (default : α) (limit : Limit) : Option Document → Option α
  | none => some default
  | some document => value limit document

/-- A part that must not be missing. -/
def present (value : Reads α) (limit : Limit) : Option Document → Option α
  | none => none
  | some document => value limit document

end Document

end FilterQuery
