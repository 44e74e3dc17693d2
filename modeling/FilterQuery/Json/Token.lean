import FilterQuery.Json.Number.Literal

/-!
# JSON tokens

`Token.ofText?` cuts a text into tokens: brackets, separators, the three words, numbers and
strings, with white space between them. It answers `none` for a text that breaks the form of a
token.

Two kinds of token are well formed and yet have no value: a number beyond the range of the
doubles, and a string with an escaped surrogate that is no half of a pair. They carry `none`, so
that a part of a document that nobody looks at may hold them.
-/

namespace FilterQuery

/-- **Tokens.** The atoms of a JSON text. -/
inductive Token
  /-- An opening square bracket. -/
  | openList
  /-- A closing square bracket. -/
  | closeList
  /-- An opening brace. -/
  | openObject
  /-- A closing brace. -/
  | closeObject
  /-- A comma. -/
  | comma
  /-- A colon. -/
  | colon
  /-- The word `null`. -/
  | null
  /-- The word `true` or `false`. -/
  | bool (value : Bool)
  /-- A number, with its value if it is in range. -/
  | num (value : Option Number)
  /-- A string, with its value if it is Unicode text. -/
  | str (value : Option String)
deriving DecidableEq

namespace Token

/-! ### Strings -/

/-- A part of a string: a character, or an escaped UTF-16 code unit. -/
inductive Piece
  /-- A character. -/
  | char (c : Char)
  /-- A code unit written as four hexadecimal digits. -/
  | unit (value : Nat)
deriving DecidableEq

/-- Is the code unit the first half of a surrogate pair? -/
def isHighSurrogate (unit : Nat) : Bool := 0xD800 ≤ unit && unit < 0xDC00

/-- Is the code unit the second half of a surrogate pair? -/
def isLowSurrogate (unit : Nat) : Bool := 0xDC00 ≤ unit && unit < 0xE000

/-- The character of a surrogate pair. -/
def ofSurrogates (high low : Nat) : Char :=
  Char.ofNat (0x10000 + (high - 0xD800) * 0x400 + (low - 0xDC00))

/-- Puts a piece in front of text that starts, if `low` is given, with the second half of a
surrogate pair. -/
def prependPiece : List Char × Option Nat → Piece → Option (List Char × Option Nat)
  | (text, none), .char c => some (c :: text, none)
  | (text, none), .unit value =>
    if isLowSurrogate value then some (text, some value)
    else if isHighSurrogate value then none
    else some (Char.ofNat value :: text, none)
  | (text, some low), .unit value =>
    if isHighSurrogate value then some (ofSurrogates value low :: text, none) else none
  | (_, some _), .char _ => none

/-- The text of a string from its pieces, last piece first. -/
def textOfPieces? (reversed : List Piece) : Option String :=
  match reversed.foldlM prependPiece ([], none) with
  | some (text, none) => some (.ofList text)
  | _ => none

/-- The character that a one-letter escape stands for. -/
def escaped? : Char → Option Char
  | '"' => some '"'
  | '\\' => some '\\'
  | '/' => some '/'
  | 'b' => some '\x08'
  | 'f' => some '\x0c'
  | 'n' => some '\n'
  | 'r' => some '\r'
  | 't' => some '\t'
  | _ => none

/-- The value of a hexadecimal digit. -/
def hexDigit? (c : Char) : Option Nat :=
  if c.isDigit then some (c.toNat - '0'.toNat)
  else if 'a' ≤ c ∧ c ≤ 'f' then some (c.toNat - 'a'.toNat + 10)
  else if 'A' ≤ c ∧ c ≤ 'F' then some (c.toNat - 'A'.toNat + 10)
  else none

/-! ### Scanning -/

/-- What the scanner is inside of. Parts already read are kept last first. -/
inductive Mode
  /-- Between two tokens. -/
  | between
  /-- In a word. -/
  | word (letters : List Char)
  /-- In a number. -/
  | number (chars : List Char)
  /-- In a string. -/
  | text (pieces : List Piece)
  /-- In a string, after a backslash. -/
  | escape (pieces : List Piece)
  /-- In a string, in a code unit of which `missing + 1` digits are to come. -/
  | unit (pieces : List Piece) (missing : Nat) (value : Nat)
deriving DecidableEq

/-- **Scanner states.** The tokens read so far, last first, and the token in progress. -/
structure Scan where
  /-- The tokens read so far, last first. -/
  tokens : List Token
  /-- The token in progress. -/
  mode : Mode
deriving DecidableEq

/-- The word that the letters spell, last letter first. -/
def ofWord? (letters : List Char) : Option Token :=
  match String.ofList letters.reverse with
  | "null" => some .null
  | "true" => some (.bool true)
  | "false" => some (.bool false)
  | _ => none

/-- The number that the characters spell, last character first. -/
def ofNumber? (chars : List Char) : Option Token :=
  (Number.Literal.ofChars? chars.reverse).map fun l => .num (Number.ofLiteral? l)

/-- May the character stand between tokens? -/
def isSpace (c : Char) : Bool := c = ' ' || c = '\t' || c = '\n' || c = '\r'

/-- May the character stand inside a number? -/
def isNumberChar (c : Char) : Bool :=
  c.isDigit || c = '-' || c = '+' || c = '.' || c = 'e' || c = 'E'

/-- Reads the first character after a finished token. -/
def start (tokens : List Token) (c : Char) : Option Scan :=
  if isSpace c then some ⟨tokens, .between⟩
  else if c.isAlpha then some ⟨tokens, .word [c]⟩
  else if c.isDigit ∨ c = '-' then some ⟨tokens, .number [c]⟩
  else match c with
    | '[' => some ⟨.openList :: tokens, .between⟩
    | ']' => some ⟨.closeList :: tokens, .between⟩
    | '\x7b' => some ⟨.openObject :: tokens, .between⟩
    | '\x7d' => some ⟨.closeObject :: tokens, .between⟩
    | ',' => some ⟨.comma :: tokens, .between⟩
    | ':' => some ⟨.colon :: tokens, .between⟩
    | '"' => some ⟨tokens, .text []⟩
    | _ => none

/-- Reads one character. -/
def step : Scan → Char → Option Scan
  | ⟨tokens, .between⟩, c => start tokens c
  | ⟨tokens, .word letters⟩, c =>
    if c.isAlpha then some ⟨tokens, .word (c :: letters)⟩
    else do start ((← ofWord? letters) :: tokens) c
  | ⟨tokens, .number chars⟩, c =>
    if isNumberChar c then some ⟨tokens, .number (c :: chars)⟩
    else do start ((← ofNumber? chars) :: tokens) c
  | ⟨tokens, .text pieces⟩, c =>
    if c = '"' then some ⟨.str (textOfPieces? pieces) :: tokens, .between⟩
    else if c = '\\' then some ⟨tokens, .escape pieces⟩
    else if c < ' ' then none
    else some ⟨tokens, .text (.char c :: pieces)⟩
  | ⟨tokens, .escape pieces⟩, c =>
    if c = 'u' then some ⟨tokens, .unit pieces 3 0⟩
    else do return ⟨tokens, .text (.char (← escaped? c) :: pieces)⟩
  | ⟨tokens, .unit pieces missing value⟩, c => do
    let value := 16 * value + (← hexDigit? c)
    match missing with
    | 0 => return ⟨tokens, .text (.unit value :: pieces)⟩
    | missing + 1 => return ⟨tokens, .unit pieces missing value⟩

/-- The tokens after the last character, last first. -/
def finish : Scan → Option (List Token)
  | ⟨tokens, .between⟩ => some tokens
  | ⟨tokens, .word letters⟩ => do return (← ofWord? letters) :: tokens
  | ⟨tokens, .number chars⟩ => do return (← ofNumber? chars) :: tokens
  | _ => none

/-- **Scanning.** The tokens of a text, if all of it is made of tokens. -/
def ofText? (text : String) : Option (List Token) := do
  return (← finish (← text.toList.foldlM step ⟨[], .between⟩)).reverse

end Token

end FilterQuery
