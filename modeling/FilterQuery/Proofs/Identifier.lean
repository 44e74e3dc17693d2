import FilterQuery.Identifier
import FilterQuery.Proofs.Text.Base64

/-!
# Relay identifiers are canonical

Relay identifiers pass through two layers, base64 and UTF-8, and then are split at the first colon.
Each layer accepts only what it writes itself: base64 by `Base64.decode_encode_eq_ok_iff`, UTF-8 by
`Utf8.decode_eq_ok_iff`, the split by `GlobalId.ofText?_eq_some_iff`. So relay identifiers and
global identifiers whose type is free of colons are in bijection (`Codec.relay_bijective`).
-/

namespace FilterQuery

/-! ### Text in bytes -/

namespace Utf8

/-- A text is determined by its bytes. -/
theorem encode_injective {s t : String} (h : encode s = encode t) : s = t := by
  have read : decode (encode s) = .ok t := h ▸ decode_encode t
  rw [decode_encode] at read
  exact Except.ok.inj read

/-- Characters below 128 are written as themselves. -/
theorem encode_ofList_of_ascii {chars : List Char} (ascii : ∀ c ∈ chars, c.toNat < 128) :
    encode (.ofList chars) = chars.map fun c => .ofNat c.toNat := by
  have bytes : encode (.ofList chars) = chars.flatMap String.utf8EncodeChar :=
    List.toList_data_toByteArray
  rw [bytes, List.map_eq_flatMap]
  refine List.flatMap_congr fun c mem => ?_
  have small : c.val ≤ 127 := Nat.le_of_lt_succ (ascii c mem)
  rw [String.utf8EncodeChar_eq_singleton (Char.utf8Size_eq_one_iff.mpr small)]
  rfl

end Utf8

namespace Base64

theorem toNat_symbol_lt (value : Nat) : (symbol value).toNat < 128 := by
  have all : alphabet.all (·.toNat < 128) := by decide +kernel
  rw [symbol, List.getD_eq_getElem?_getD]
  rcases h : alphabet[value]? with _ | c
  · decide
  · exact of_decide_eq_true (List.all_eq_true.mp all c (List.mem_of_getElem? h))

/-- The symbols and the padding are below 128. -/
theorem toNat_lt_of_mem_encode : ∀ bytes : List UInt8, ∀ c ∈ encode bytes, c.toNat < 128
  | [] => nofun
  | [_] => by simp [encode, toNat_symbol_lt]
  | [_, _] => by simp [encode, toNat_symbol_lt]
  | _ :: _ :: _ :: bytes => by simpa [encode, toNat_symbol_lt] using toNat_lt_of_mem_encode bytes

/-- **Base64 texts.** A text is read as bytes exactly if it is the base64 text of the bytes. -/
theorem decode_encode_eq_ok_iff {s : String} {bytes : List UInt8} :
    decode (Utf8.encode s) = .ok bytes ↔ s = .ofList (encode bytes) := by
  have text : Utf8.encode (.ofList (encode bytes)) = written bytes :=
    Utf8.encode_ofList_of_ascii (toNat_lt_of_mem_encode bytes)
  rw [decode_eq_ok_iff, ← text]
  exact ⟨Utf8.encode_injective, congrArg Utf8.encode⟩

end Base64

/-! ### The codec -/

namespace Codec

/-- **Relay identifiers.** A string is decoded exactly if it is the encoded form of the identifier
and the type of the identifier is free of colons. -/
theorem relay_decode_eq_ok_iff {s : String} {g : GlobalId} :
    relay.decode s = .ok g ↔ ':' ∉ g.type.toList ∧ s = relay.encode g := by
  constructor
  · intro h
    obtain ⟨bytes, hbytes, h⟩ := Except.bind_eq_ok_iff.mp h
    obtain ⟨text, htext, h⟩ := Except.bind_eq_ok_iff.mp h
    have split : GlobalId.ofText? ':' text = some g := by
      split at h
      · next found => rwa [← Except.ok.inj h]
      · cases h
    obtain ⟨free, rfl⟩ := GlobalId.ofText?_eq_some_iff.mp split
    obtain rfl := Utf8.decode_eq_ok_iff.mp (Except.mapError_eq_ok_iff.mp htext)
    exact ⟨free, Base64.decode_encode_eq_ok_iff.mp (Except.mapError_eq_ok_iff.mp hbytes)⟩
  · rintro ⟨free, eq⟩
    have hbytes := Base64.decode_encode_eq_ok_iff.mpr eq
    have htext := Utf8.decode_encode g.display
    have split : GlobalId.ofText? ':' g.display = some g :=
      GlobalId.ofText?_eq_some_iff.mpr ⟨free, rfl⟩
    refine Except.bind_eq_ok_iff.mpr ⟨_, Except.mapError_eq_ok_iff.mpr hbytes, ?_⟩
    refine Except.bind_eq_ok_iff.mpr ⟨_, Except.mapError_eq_ok_iff.mpr htext, ?_⟩
    rw [split]

/-- **Bijection.** The strings that are decoded as relay identifiers and the identifiers whose type
is free of colons correspond to each other: each such identifier is decoded from its encoded form,
whatever its local id is, and from no other string. -/
theorem relay_bijective :
    (∀ s g, relay.decode s = .ok g ↔ ':' ∉ g.type.toList ∧ s = relay.encode g) ∧
      (∀ g, ':' ∉ g.type.toList → relay.decode (relay.encode g) = .ok g) ∧
      (∀ s g, relay.decode s = .ok g → relay.encode g = s) ∧
      ∀ s s' g, relay.decode s = .ok g → relay.decode s' = .ok g → s = s' := by
  have canonical {s : String} {g : GlobalId} (h : relay.decode s = .ok g) : relay.encode g = s :=
    (relay_decode_eq_ok_iff.mp h).2.symm
  refine ⟨fun s g => relay_decode_eq_ok_iff, fun g free => ?_, fun s g => canonical, ?_⟩
  · exact relay_decode_eq_ok_iff.mpr ⟨free, rfl⟩
  · intro s s' g h h'
    rw [← canonical h, ← canonical h']

/-- Bits that are left over make a text one that nothing is written as. -/
example : relay.decode "QTo=" = .ok ⟨"A", ""⟩ ∧
    relay.decode "QTp=" = .error (.base64 (.invalidLastSymbol 112 2)) := ⟨rfl, rfl⟩

end Codec

end FilterQuery
