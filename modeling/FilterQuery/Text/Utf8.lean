/-!
# Reading UTF-8

`Utf8.decode` reads bytes as text. What well-formed UTF-8 is, is `ByteArray.IsValidUTF8`: the
bytes are the encoding of some characters. Bytes that are not well formed are refused with a
`Utf8.Fault` that says where the longest well-formed beginning ends and how many bytes after it
form the broken sequence.
-/

namespace FilterQuery

namespace Utf8

/-- **Faults.** Why bytes are no UTF-8 text. -/
inductive Fault
  /-- At the index, some bytes are the beginning of no character, or of one that the byte after
  them does not continue. -/
  | illFormed (length : Nat) (index : Nat)
  /-- The bytes end inside the character that starts at the index. -/
  | incomplete (index : Nat)
deriving DecidableEq, Repr

/-- The fault in words. -/
def Fault.message : Fault → String
  | .illFormed length index => s!"invalid utf-8 sequence of {length} bytes from index {index}"
  | .incomplete index => s!"incomplete utf-8 byte sequence from index {index}"

/-- The bytes that may continue a character. -/
def continuation : UInt8 × UInt8 := (0x80, 0xBF)

/-- The ranges of the bytes that must follow a first byte; `none` for a byte that starts no
character. Four first bytes narrow the second byte, against overlong forms, surrogates and
values beyond the last code point. -/
def following? (first : UInt8) : Option (List (UInt8 × UInt8)) :=
  if first < 0x80 then some []
  else if first < 0xC2 then none
  else if first < 0xE0 then some [continuation]
  else if first = 0xE0 then some [(0xA0, 0xBF), continuation]
  else if first = 0xED then some [(0x80, 0x9F), continuation]
  else if first < 0xF0 then some [continuation, continuation]
  else if first = 0xF0 then some [(0x90, 0xBF), continuation, continuation]
  else if first < 0xF4 then some [continuation, continuation, continuation]
  else if first = 0xF4 then some [(0x80, 0x8F), continuation, continuation]
  else none

/-- The first fault of bytes that start at an index, inside a character that started at `start`
and expects bytes in the given ranges. -/
def fault? (index start : Nat) (expected : List (UInt8 × UInt8)) : List UInt8 → Option Fault
  | [] => if expected = [] then none else some (.incomplete start)
  | byte :: bytes =>
    match expected with
    | [] =>
      match following? byte with
      | none => some (.illFormed 1 index)
      | some expected => fault? (index + 1) index expected bytes
    | range :: expected =>
      if range.1 ≤ byte ∧ byte ≤ range.2 then fault? (index + 1) start expected bytes
      else some (.illFormed (index - start) start)

/-- The UTF-8 bytes of a text. -/
def encode (s : String) : List UInt8 := s.toByteArray.data.toList

/-- The bytes as an array. -/
def pack (bytes : List UInt8) : ByteArray := ⟨bytes.toArray⟩

/-- **Reading.** The text whose UTF-8 bytes these are. -/
def decode (bytes : List UInt8) : Except Fault String :=
  if h : (pack bytes).IsValidUTF8 then .ok (.ofByteArray (pack bytes) h)
  else .error ((fault? 0 0 [] bytes).getD (.incomplete bytes.length))

/-! ### Reading and writing are inverse -/

theorem pack_encode (s : String) : pack (encode s) = s.toByteArray := rfl

/-- Reading accepts exactly the bytes of texts. -/
theorem decode_eq_ok_iff {bytes : List UInt8} {s : String} :
    decode bytes = .ok s ↔ bytes = encode s := by
  rw [decode]
  constructor
  · intro h
    split at h
    · next valid =>
      cases h
      simp [encode, pack]
    · cases h
  · rintro rfl
    rw [dif_pos (by rw [pack_encode]; exact s.isValidUTF8)]
    rfl

/-- A text is read back from its bytes. -/
@[simp]
theorem decode_encode (s : String) : decode (encode s) = .ok s := decode_eq_ok_iff.mpr rfl

end Utf8

end FilterQuery
