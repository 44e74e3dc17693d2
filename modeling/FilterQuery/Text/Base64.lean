/-!
# Base64

Three bytes are written as four symbols of the standard alphabet, the rest of one or two bytes
as two or three symbols and as many `=` as complete a group of four. Reading is strict: the
padding must be there, and the bits of the last symbol that belong to no byte must be zero, so
every text that is accepted is the written form of what it stands for.

Reading answers with the first `Base64.Fault` of the text. All groups but the last hold symbols
only, and are checked first; then the last group is checked byte by byte, then as a whole. One
fault goes before them all: a single last byte that could be neither a symbol nor padding.
-/

namespace FilterQuery

namespace Base64

/-! ### Symbols -/

/-- The symbols in the order of their values. -/
def alphabet : List Char :=
  "ABCDEFGHIJKLMNOPQRSTUVWXYZabcdefghijklmnopqrstuvwxyz0123456789+/".toList

/-- The symbol of a value below 64. -/
def symbol (value : Nat) : Char := alphabet.getD value 'A'

/-- The value of the symbol that a byte writes. -/
def value? (byte : UInt8) : Option Nat := alphabet.findIdx? fun c => c.toNat = byte.toNat

/-- The padding byte. -/
def padding : UInt8 := 61

/-! ### Writing -/

/-- The four values of three bytes. -/
def split (a b c : UInt8) : Nat × Nat × Nat × Nat :=
  (a.toNat / 4, a.toNat % 4 * 16 + b.toNat / 16, b.toNat % 16 * 4 + c.toNat / 64, c.toNat % 64)

/-- **Writing.** The symbols and the padding of bytes. -/
def encode : List UInt8 → List Char
  | [] => []
  | [a] =>
    let (p, q, _, _) := split a 0 0
    [symbol p, symbol q, '=', '=']
  | [a, b] =>
    let (p, q, r, _) := split a b 0
    [symbol p, symbol q, symbol r, '=']
  | a :: b :: c :: bytes =>
    let (p, q, r, s) := split a b c
    symbol p :: symbol q :: symbol r :: symbol s :: encode bytes

/-! ### Reading -/

/-- **Faults.** Why a text is no base64. -/
inductive Fault
  /-- A byte that is no symbol where a symbol must stand, or padding out of place. -/
  | invalidByte (byte : UInt8) (offset : Nat)
  /-- The last group has too few symbols; so many symbols came before its end. -/
  | invalidLength (symbols : Nat)
  /-- Padding is missing. -/
  | invalidPadding
  /-- The last symbol has bits that belong to no byte. -/
  | invalidLastSymbol (byte : UInt8) (offset : Nat)
deriving DecidableEq, Repr

/-- The fault in words. -/
def Fault.message : Fault → String
  | .invalidByte byte offset => s!"Invalid symbol {byte}, offset {offset}."
  | .invalidLength symbols => s!"Invalid input length: {symbols}"
  | .invalidPadding => "Invalid padding"
  | .invalidLastSymbol byte offset => s!"Invalid last symbol {byte}, offset {offset}."

/-- The three bytes of four values. -/
def join (p q r s : Nat) : List UInt8 :=
  [.ofNat (p * 4 + q / 16), .ofNat (q % 16 * 16 + r / 4), .ofNat (r % 4 * 64 + s)]

/-- The value of a byte at an offset where a symbol must stand. -/
def valueAt (offset : Nat) (byte : UInt8) : Except Fault Nat :=
  match value? byte with
  | some value => .ok value
  | none => .error (.invalidByte byte offset)

/-- **Last groups.** The symbols of a last group with their values, and how often it is padded. -/
structure LastGroup where
  /-- The symbols and their values. -/
  symbols : List (UInt8 × Nat)
  /-- How often the group is padded. -/
  padded : Nat
deriving DecidableEq, Repr

/-- Reads the padding of a last group, of which only padding may follow. -/
def readPadding (first : Nat) : List UInt8 → Except Fault Nat
  | [] => .ok 0
  | byte :: bytes =>
    if byte = padding then do return (← readPadding first bytes) + 1
    else .error (.invalidByte padding first)

/-- Reads a last group from a place in it on. -/
def readLastGroup (start place : Nat) : List UInt8 → Except Fault LastGroup
  | [] => .ok ⟨[], 0⟩
  | byte :: bytes =>
    if byte = padding then
      if place < 2 then .error (.invalidByte padding (start + place))
      else do return ⟨[], (← readPadding (start + place) bytes) + 1⟩
    else do
      let value ← valueAt (start + place) byte
      let group ← readLastGroup start (place + 1) bytes
      return { group with symbols := (byte, value) :: group.symbols }

/-- The bytes of a last group that starts at an offset. -/
def decodeLastGroup (start : Nat) (bytes : List UInt8) : Except Fault (List UInt8) := do
  let group ← readLastGroup start 0 bytes
  let count := group.symbols.length
  if bytes ≠ [] ∧ count < 2 then .error (.invalidLength (start + count))
  else if (count + group.padded) % 4 ≠ 0 then .error .invalidPadding
  else match group.symbols with
    | [(_, p), (byte, q)] =>
      if q % 16 ≠ 0 then .error (.invalidLastSymbol byte (start + 1))
      else .ok ((join p q 0 0).take 1)
    | [(_, p), (_, q), (byte, r)] =>
      if r % 4 ≠ 0 then .error (.invalidLastSymbol byte (start + 2))
      else .ok ((join p q r 0).take 2)
    | [(_, p), (_, q), (_, r), (_, s)] => .ok (join p q r s)
    | _ => .ok []

/-- The bytes of the groups that start at an offset. -/
def decodeGroups (start : Nat) : List UInt8 → Except Fault (List UInt8)
  | a :: b :: c :: d :: next :: bytes => do
    let p ← valueAt start a
    let q ← valueAt (start + 1) b
    let r ← valueAt (start + 2) c
    let s ← valueAt (start + 3) d
    return join p q r s ++ (← decodeGroups (start + 4) (next :: bytes))
  | bytes => decodeLastGroup start bytes

/-- Is the text one byte too long, by a byte that is neither symbol nor padding? -/
def strayLast? (bytes : List UInt8) : Option UInt8 :=
  if bytes.length % 4 = 1 then
    bytes.getLast?.filter fun byte => (value? byte).isNone && byte != padding
  else none

/-- **Reading.** The bytes that a text stands for, given by its own bytes. -/
def decode (bytes : List UInt8) : Except Fault (List UInt8) :=
  match strayLast? bytes with
  | some byte => .error (.invalidByte byte (bytes.length - 1))
  | none => decodeGroups 0 bytes

end Base64

end FilterQuery
