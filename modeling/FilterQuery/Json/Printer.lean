import FilterQuery.Json.Basic

/-!
# Writing JSON

Values are written in two layouts: `Json.compact` on one line without spaces, and `Json.pretty`
with one member or element a line, indented by two spaces for each level, and empty lists and
objects as a pair of brackets. Members stand in key order.

In a string only the quote, the backslash and the control characters below the space are
escaped.
-/

namespace FilterQuery

namespace Json

/-! ### Strings -/

/-- A hexadecimal digit in lower case. -/
def hexDigit (n : Nat) : Char := n.digitChar

/-- The written form of a character inside a string. -/
def charText (c : Char) : String :=
  match c with
  | '"' => "\\\""
  | '\\' => "\\\\"
  | '\x08' => "\\b"
  | '\x0c' => "\\f"
  | '\n' => "\\n"
  | '\r' => "\\r"
  | '\t' => "\\t"
  | c =>
    if c < ' ' then .ofList ['\\', 'u', '0', '0', hexDigit (c.toNat / 16), hexDigit (c.toNat % 16)]
    else .singleton c

/-- The written form of a string. -/
def stringText (s : String) : String :=
  s.foldl (fun out c => out ++ charText c) "\"" ++ "\""

/-! ### On one line -/

/-- A separator, which stands only between two parts. -/
def separated (first : Bool) (separator : String) : String := if first then "" else separator

mutual

/-- Appends a value on one line. -/
def writeCompact (out : String) : Json → String
  | .null => out ++ "null"
  | .bool value => out ++ (if value then "true" else "false")
  | .num value => out ++ value.text
  | .str value => out ++ stringText value
  | .arr items => (writeCompactItems true (out ++ "[") items) ++ "]"
  | .obj members => (writeCompactMembers true (out ++ "\x7b") members) ++ "\x7d"

/-- Appends the elements of a list on one line. -/
def writeCompactItems (first : Bool) (out : String) : List Json → String
  | [] => out
  | item :: items =>
    writeCompactItems false (item.writeCompact (out ++ separated first ",")) items

/-- Appends the members of an object on one line. -/
def writeCompactMembers (first : Bool) (out : String) {bound : Option String} :
    Dict Json bound → String
  | .nil => out
  | .cons key _ value rest =>
    let out := out ++ separated first "," ++ stringText key ++ ":"
    writeCompactMembers false (value.writeCompact out) rest

end

/-- **One line.** The value without any white space. -/
def compact (value : Json) : String := value.writeCompact ""

/-! ### Indented -/

/-- A new line, indented for a level. -/
def newline (level : Nat) : String := .ofList ('\n' :: List.replicate (2 * level) ' ')

mutual

/-- Appends a value at a level of indentation. -/
def writePretty (level : Nat) (out : String) : Json → String
  | .null => out ++ "null"
  | .bool value => out ++ (if value then "true" else "false")
  | .num value => out ++ value.text
  | .str value => out ++ stringText value
  | .arr [] => out ++ "[]"
  | .arr items => writePrettyItems (level + 1) true (out ++ "[") items ++ newline level ++ "]"
  | .obj .nil => out ++ "\x7b\x7d"
  | .obj members =>
    writePrettyMembers (level + 1) true (out ++ "\x7b") members ++ newline level ++ "\x7d"

/-- Appends the elements of a list, each on a line of its own. -/
def writePrettyItems (level : Nat) (first : Bool) (out : String) : List Json → String
  | [] => out
  | item :: items =>
    let out := out ++ separated first "," ++ newline level
    writePrettyItems level false (item.writePretty level out) items

/-- Appends the members of an object, each on a line of its own. -/
def writePrettyMembers (level : Nat) (first : Bool) (out : String) {bound : Option String} :
    Dict Json bound → String
  | .nil => out
  | .cons key _ value rest =>
    let out := out ++ separated first "," ++ newline level ++ stringText key ++ ": "
    writePrettyMembers level false (value.writePretty level out) rest

end

/-- **Indented.** The value with one member or element a line. -/
def pretty (value : Json) : String := value.writePretty 0 ""

end Json

end FilterQuery
