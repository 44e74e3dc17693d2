import FilterQuery.Text.Utf8
import Mathlib.Data.List.Forall2

/-!
# Well-formed UTF-8

Well-formed bytes are characters one after the other, and a character is one to four bytes, each in
a range that depends on the bytes before it (`Utf8.rows`). The ranges leave out overlong forms,
surrogates and values beyond the last code point, and a character that is cut short is none.

Two other accounts agree with this one. The well-formed bytes are the encodings of characters
(`Utf8.wellFormed_iff_exists_chars`), which is what `Utf8.decode` accepts; and they are the bytes in
which `Utf8.fault?` finds no fault (`Utf8.fault?_eq_none_iff`). So bytes that are refused have a
fault, and it is the one that they are refused with (`Utf8.decode_eq_error_iff`).
-/

namespace FilterQuery

namespace Utf8

/-! ### The table -/

/-- The byte lies in a range. -/
def Within (range : UInt8 × UInt8) (byte : UInt8) : Prop := range.1 ≤ byte ∧ byte ≤ range.2

instance {range : UInt8 × UInt8} {byte : UInt8} : Decidable (Within range byte) :=
  inferInstanceAs (Decidable (_ ∧ _))

/-- **Rows.** The ranges of the bytes of a character. -/
def rows : List (List (UInt8 × UInt8)) :=
  [[(0x00, 0x7F)],
    [(0xC2, 0xDF), continuation],
    [(0xE0, 0xE0), (0xA0, 0xBF), continuation],
    [(0xE1, 0xEC), continuation, continuation],
    [(0xED, 0xED), (0x80, 0x9F), continuation],
    [(0xEE, 0xEF), continuation, continuation],
    [(0xF0, 0xF0), (0x90, 0xBF), continuation, continuation],
    [(0xF1, 0xF3), continuation, continuation, continuation],
    [(0xF4, 0xF4), (0x80, 0x8F), continuation, continuation]]

/-- **Well-formed bytes.** Characters one after the other, each with the ranges of a row. -/
inductive WellFormed : List UInt8 → Prop
  /-- No character. -/
  | nil : WellFormed []
  /-- A character, then others. -/
  | append {row : List (UInt8 × UInt8)} {char rest : List UInt8} (mem : row ∈ rows)
    (within : List.Forall₂ Within row char) (wellFormed : WellFormed rest) :
    WellFormed (char ++ rest)

theorem within_iff {range : UInt8 × UInt8} {byte : UInt8} :
    Within range byte ↔ range.1.toNat ≤ byte.toNat ∧ byte.toNat ≤ range.2.toNat := by
  rw [Within, UInt8.le_iff_toNat_le, UInt8.le_iff_toNat_le]

theorem within_ofNat (low high : Nat) {n : Nat} (small : high < 256) (lower : low ≤ n)
    (upper : n ≤ high) : Within (.ofNat low, .ofNat high) (.ofNat n) := by
  have toNat {m : Nat} (le : m ≤ high) : (UInt8.ofNat m).toNat = m :=
    UInt8.toNat_ofNat_of_lt' (Nat.lt_of_le_of_lt le small)
  rw [within_iff, toNat (Nat.le_trans lower upper), toNat upper, toNat (Nat.le_refl high)]
  exact ⟨lower, upper⟩

/-- Six bits with the mark of a continuation. -/
theorem within_continuation (n : Nat) : Within continuation (.ofNat (n % 64 + 0x80)) :=
  within_ofNat 0x80 0xBF (by decide) (by omega) (by omega)

/-! ### Every character is in the table -/

section Encoding

variable {v : Nat}

theorem exists_row_one (upper : v ≤ 0x7F) : ∃ row ∈ rows, List.Forall₂ Within row [.ofNat v] := by
  refine ⟨[(0x00, 0x7F)], by simp [rows], .cons ?_ .nil⟩
  exact within_ofNat 0x00 0x7F (by decide) (by omega) upper

theorem exists_row_two (lower : 0x7F < v) (upper : v ≤ 0x7FF) :
    ∃ row ∈ rows, List.Forall₂ Within row
      [.ofNat (v / 64 % 32 + 0xC0), .ofNat (v % 64 + 0x80)] := by
  have second := within_continuation v
  refine ⟨[(0xC2, 0xDF), continuation], by simp [rows], .cons ?_ (.cons second .nil)⟩
  exact within_ofNat 0xC2 0xDF (by decide) (by omega) (by omega)

theorem exists_row_three (lower : 0x7FF < v) (upper : v ≤ 0xFFFF)
    (noSurrogate : v < 0xD800 ∨ 0xDFFF < v) :
    ∃ row ∈ rows, List.Forall₂ Within row
      [.ofNat (v / 4096 % 16 + 0xE0), .ofNat (v / 64 % 64 + 0x80), .ofNat (v % 64 + 0x80)] := by
  have second := within_continuation (v / 64)
  have third := within_continuation v
  -- The first and the fourteenth block have only a part of the second bytes.
  obtain first | first | first | first : v / 4096 = 0 ∨ 1 ≤ v / 4096 ∧ v / 4096 ≤ 12 ∨
      v / 4096 = 13 ∨ 14 ≤ v / 4096 := by omega
  · refine ⟨[(0xE0, 0xE0), (0xA0, 0xBF), continuation], by simp [rows],
      .cons ?_ (.cons ?_ (.cons third .nil))⟩
    · exact within_ofNat 0xE0 0xE0 (by decide) (by omega) (by omega)
    · exact within_ofNat 0xA0 0xBF (by decide) (by omega) (by omega)
  · refine ⟨[(0xE1, 0xEC), continuation, continuation], by simp [rows],
      .cons ?_ (.cons second (.cons third .nil))⟩
    exact within_ofNat 0xE1 0xEC (by decide) (by omega) (by omega)
  · refine ⟨[(0xED, 0xED), (0x80, 0x9F), continuation], by simp [rows],
      .cons ?_ (.cons ?_ (.cons third .nil))⟩
    · exact within_ofNat 0xED 0xED (by decide) (by omega) (by omega)
    · exact within_ofNat 0x80 0x9F (by decide) (by omega) (by omega)
  · refine ⟨[(0xEE, 0xEF), continuation, continuation], by simp [rows],
      .cons ?_ (.cons second (.cons third .nil))⟩
    exact within_ofNat 0xEE 0xEF (by decide) (by omega) (by omega)

theorem exists_row_four (lower : 0xFFFF < v) (upper : v < 0x110000) :
    ∃ row ∈ rows, List.Forall₂ Within row
      [.ofNat (v / 262144 % 8 + 0xF0), .ofNat (v / 4096 % 64 + 0x80),
        .ofNat (v / 64 % 64 + 0x80), .ofNat (v % 64 + 0x80)] := by
  have second := within_continuation (v / 4096)
  have third := within_continuation (v / 64)
  have fourth := within_continuation v
  obtain first | first | first : v / 262144 = 0 ∨ 1 ≤ v / 262144 ∧ v / 262144 ≤ 3 ∨
      v / 262144 = 4 := by omega
  · refine ⟨[(0xF0, 0xF0), (0x90, 0xBF), continuation, continuation], by simp [rows],
      .cons ?_ (.cons ?_ (.cons third (.cons fourth .nil)))⟩
    · exact within_ofNat 0xF0 0xF0 (by decide) (by omega) (by omega)
    · exact within_ofNat 0x90 0xBF (by decide) (by omega) (by omega)
  · refine ⟨[(0xF1, 0xF3), continuation, continuation, continuation], by simp [rows],
      .cons ?_ (.cons second (.cons third (.cons fourth .nil)))⟩
    exact within_ofNat 0xF1 0xF3 (by decide) (by omega) (by omega)
  · refine ⟨[(0xF4, 0xF4), (0x80, 0x8F), continuation, continuation], by simp [rows],
      .cons ?_ (.cons ?_ (.cons third (.cons fourth .nil)))⟩
    · exact within_ofNat 0xF4 0xF4 (by decide) (by omega) (by omega)
    · exact within_ofNat 0x80 0x8F (by decide) (by omega) (by omega)

end Encoding

/-- Every character is encoded within the ranges of a row. -/
theorem exists_row (c : Char) :
    ∃ row ∈ rows, List.Forall₂ Within row (String.utf8EncodeChar c) := by
  have valid : c.val.toNat < 0xD800 ∨ 0xDFFF < c.val.toNat ∧ c.val.toNat < 0x110000 := c.valid
  unfold String.utf8EncodeChar
  dsimp only
  split
  · next one => exact exists_row_one one
  split
  · next notOne two => exact exists_row_two (Nat.lt_of_not_le notOne) two
  split
  · next notTwo three => exact exists_row_three (Nat.lt_of_not_le notTwo) three (by omega)
  · next notThree => exact exists_row_four (Nat.lt_of_not_le notThree) (by omega)

/-! ### The table has only characters -/

/-- The character with a number. -/
theorem exists_char {v : Nat} (valid : v < 0xD800 ∨ 0xDFFF < v ∧ v < 0x110000) :
    ∃ char : Char, char.val.toNat = v :=
  ⟨Char.ofNatAux v valid, rfl⟩

/-- A byte is the byte of its number. -/
private theorem ofNat_eq {n : Nat} {byte : UInt8} (h : n = byte.toNat) : UInt8.ofNat n = byte := by
  rw [h, UInt8.ofNat_toNat]

section Decoding

variable {a b c d : UInt8}

theorem exists_char_one (upper : a.toNat ≤ 0x7F) : ∃ char, String.utf8EncodeChar char = [a] := by
  obtain ⟨char, number⟩ := exists_char (v := a.toNat) (by omega)
  refine ⟨char, ?_⟩
  rw [String.utf8EncodeChar, number, if_pos upper, UInt8.ofNat_toNat]

theorem exists_char_two (ha : 0xC2 ≤ a.toNat ∧ a.toNat ≤ 0xDF)
    (hb : 0x80 ≤ b.toNat ∧ b.toNat ≤ 0xBF) : ∃ char, String.utf8EncodeChar char = [a, b] := by
  let v := (a.toNat - 0xC0) * 64 + (b.toNat - 0x80)
  have hv : v = (a.toNat - 0xC0) * 64 + (b.toNat - 0x80) := rfl
  obtain ⟨char, number⟩ := exists_char (v := v) (by omega)
  have first : UInt8.ofNat (v / 64 % 32 + 0xC0) = a := ofNat_eq (by omega)
  have second : UInt8.ofNat (v % 64 + 0x80) = b := ofNat_eq (by omega)
  refine ⟨char, ?_⟩
  rw [String.utf8EncodeChar, number, if_neg (by omega), if_pos (by omega), first, second]

theorem exists_char_three (ha : 0xE0 ≤ a.toNat ∧ a.toNat ≤ 0xEF)
    (hb : 0x80 ≤ b.toNat ∧ b.toNat ≤ 0xBF) (hc : 0x80 ≤ c.toNat ∧ c.toNat ≤ 0xBF)
    (long : a.toNat = 0xE0 → 0xA0 ≤ b.toNat) (noSurrogate : a.toNat = 0xED → b.toNat ≤ 0x9F) :
    ∃ char, String.utf8EncodeChar char = [a, b, c] := by
  let v := (a.toNat - 0xE0) * 4096 + (b.toNat - 0x80) * 64 + (c.toNat - 0x80)
  have hv : v = (a.toNat - 0xE0) * 4096 + (b.toNat - 0x80) * 64 + (c.toNat - 0x80) := rfl
  have notTwo : 0x7FF < v := by omega
  obtain ⟨char, number⟩ := exists_char (v := v) (by omega)
  have first : UInt8.ofNat (v / 4096 % 16 + 0xE0) = a := ofNat_eq (by omega)
  have second : UInt8.ofNat (v / 64 % 64 + 0x80) = b := ofNat_eq (by omega)
  have third : UInt8.ofNat (v % 64 + 0x80) = c := ofNat_eq (by omega)
  refine ⟨char, ?_⟩
  rw [String.utf8EncodeChar, number, if_neg (by omega), if_neg (by omega), if_pos (by omega), first,
    second, third]

theorem exists_char_four (ha : 0xF0 ≤ a.toNat ∧ a.toNat ≤ 0xF4)
    (hb : 0x80 ≤ b.toNat ∧ b.toNat ≤ 0xBF) (hc : 0x80 ≤ c.toNat ∧ c.toNat ≤ 0xBF)
    (hd : 0x80 ≤ d.toNat ∧ d.toNat ≤ 0xBF) (long : a.toNat = 0xF0 → 0x90 ≤ b.toNat)
    (last : a.toNat = 0xF4 → b.toNat ≤ 0x8F) :
    ∃ char, String.utf8EncodeChar char = [a, b, c, d] := by
  let v := (a.toNat - 0xF0) * 262144 + (b.toNat - 0x80) * 4096 + (c.toNat - 0x80) * 64 +
    (d.toNat - 0x80)
  have hv : v = (a.toNat - 0xF0) * 262144 + (b.toNat - 0x80) * 4096 + (c.toNat - 0x80) * 64 +
    (d.toNat - 0x80) := rfl
  have notThree : 0xFFFF < v := by omega
  obtain ⟨char, number⟩ := exists_char (v := v) (by omega)
  have first : UInt8.ofNat (v / 262144 % 8 + 0xF0) = a := ofNat_eq (by omega)
  have second : UInt8.ofNat (v / 4096 % 64 + 0x80) = b := ofNat_eq (by omega)
  have third : UInt8.ofNat (v / 64 % 64 + 0x80) = c := ofNat_eq (by omega)
  have fourth : UInt8.ofNat (v % 64 + 0x80) = d := ofNat_eq (by omega)
  refine ⟨char, ?_⟩
  rw [String.utf8EncodeChar, number, if_neg (by omega), if_neg (by omega), if_neg (by omega),
    first, second, third, fourth]

end Decoding

/-- Bytes within the ranges of a row encode a character. -/
theorem exists_char_of_row {row : List (UInt8 × UInt8)} {bytes : List UInt8} (mem : row ∈ rows)
    (within : List.Forall₂ Within row bytes) : ∃ char, String.utf8EncodeChar char = bytes := by
  simp only [rows, List.mem_cons, List.not_mem_nil, or_false] at mem
  rcases mem with rfl | rfl | rfl | rfl | rfl | rfl | rfl | rfl | rfl <;>
    simp only [continuation, List.forall₂_cons_left_iff, List.forall₂_nil_left_iff, within_iff,
      UInt8.reduceToNat] at within
  · obtain ⟨a, _, ha, rfl, rfl⟩ := within
    exact exists_char_one ha.2
  · obtain ⟨a, _, ha, ⟨b, _, hb, rfl, rfl⟩, rfl⟩ := within
    exact exists_char_two ha hb
  · obtain ⟨a, _, ha, ⟨b, _, hb, ⟨c, _, hc, rfl, rfl⟩, rfl⟩, rfl⟩ := within
    exact exists_char_three (by omega) (by omega) hc (by omega) (by omega)
  · obtain ⟨a, _, ha, ⟨b, _, hb, ⟨c, _, hc, rfl, rfl⟩, rfl⟩, rfl⟩ := within
    exact exists_char_three (by omega) hb hc (by omega) (by omega)
  · obtain ⟨a, _, ha, ⟨b, _, hb, ⟨c, _, hc, rfl, rfl⟩, rfl⟩, rfl⟩ := within
    exact exists_char_three (by omega) (by omega) hc (by omega) (by omega)
  · obtain ⟨a, _, ha, ⟨b, _, hb, ⟨c, _, hc, rfl, rfl⟩, rfl⟩, rfl⟩ := within
    exact exists_char_three (by omega) hb hc (by omega) (by omega)
  · obtain ⟨a, _, ha, ⟨b, _, hb, ⟨c, _, hc, ⟨d, _, hd, rfl, rfl⟩, rfl⟩, rfl⟩, rfl⟩ := within
    exact exists_char_four (by omega) (by omega) hc hd (by omega) (by omega)
  · obtain ⟨a, _, ha, ⟨b, _, hb, ⟨c, _, hc, ⟨d, _, hd, rfl, rfl⟩, rfl⟩, rfl⟩, rfl⟩ := within
    exact exists_char_four (by omega) hb hc hd (by omega) (by omega)
  · obtain ⟨a, _, ha, ⟨b, _, hb, ⟨c, _, hc, ⟨d, _, hd, rfl, rfl⟩, rfl⟩, rfl⟩, rfl⟩ := within
    exact exists_char_four (by omega) (by omega) hc hd (by omega) (by omega)

/-! ### Texts -/

/-- **Encodings.** The well-formed bytes are the encodings of characters. -/
theorem wellFormed_iff_exists_chars {bytes : List UInt8} :
    WellFormed bytes ↔ ∃ chars : List Char, bytes = chars.flatMap String.utf8EncodeChar := by
  constructor
  · intro wellFormed
    induction wellFormed with
    | nil => exact ⟨[], rfl⟩
    | append mem within _ ih =>
      obtain ⟨chars, rfl⟩ := ih
      obtain ⟨char, rfl⟩ := exists_char_of_row mem within
      exact ⟨char :: chars, List.flatMap_cons.symm⟩
  · rintro ⟨chars, rfl⟩
    induction chars with
    | nil => exact .nil
    | cons char chars ih =>
      obtain ⟨row, mem, within⟩ := exists_row char
      rw [List.flatMap_cons]
      exact .append mem within ih

theorem isValidUTF8_pack_iff {bytes : List UInt8} :
    (pack bytes).IsValidUTF8 ↔ WellFormed bytes := by
  rw [wellFormed_iff_exists_chars]
  constructor
  · rintro ⟨chars, eq⟩
    have data : (pack bytes).data.toList = chars.utf8Encode.data.toList := by rw [eq]
    exact ⟨chars, data.trans List.toList_data_toByteArray⟩
  · rintro ⟨chars, rfl⟩
    exact ⟨chars, ByteArray.ext (Array.toList_inj.mp List.toList_data_toByteArray.symm)⟩

theorem wellFormed_encode (s : String) : WellFormed (encode s) :=
  isValidUTF8_pack_iff.mp (pack_encode s ▸ s.isValidUTF8)

/-- Reading refuses exactly the bytes that are not well-formed. -/
theorem exists_decode_eq_error_iff {bytes : List UInt8} :
    (∃ fault, decode bytes = .error fault) ↔ ¬ WellFormed bytes := by
  rw [← isValidUTF8_pack_iff, decode]
  split
  · next valid => simp [valid]
  · next invalid => simp [invalid]

/-! ### Faults -/

/-- The bytes complete a character of which bytes in the given ranges are missing, and others
follow. -/
def Completes (expected : List (UInt8 × UInt8)) (bytes : List UInt8) : Prop :=
  ∃ missing rest, bytes = missing ++ rest ∧ List.Forall₂ Within expected missing ∧ WellFormed rest

theorem completes_nil_iff {bytes : List UInt8} : Completes [] bytes ↔ WellFormed bytes := by
  simp [Completes, List.forall₂_nil_left_iff]

/-- Bytes that are missing do not end. -/
theorem eq_nil_of_completes {expected : List (UInt8 × UInt8)} (h : Completes expected []) :
    expected = [] := by
  obtain ⟨missing, rest, split, within, -⟩ := h
  obtain ⟨rfl, -⟩ := List.append_eq_nil_iff.mp split.symm
  exact List.forall₂_nil_right_iff.mp within

theorem completes_cons_iff {range : UInt8 × UInt8} {expected : List (UInt8 × UInt8)} {byte : UInt8}
    {bytes : List UInt8} :
    Completes (range :: expected) (byte :: bytes) ↔
      Within range byte ∧ Completes expected bytes := by
  constructor
  · rintro ⟨missing, rest, split, within, wellFormed⟩
    obtain ⟨first, others, head, tail, rfl⟩ := List.forall₂_cons_left_iff.mp within
    obtain ⟨rfl, rfl⟩ := List.cons.inj split
    exact ⟨head, others, rest, rfl, tail, wellFormed⟩
  · rintro ⟨head, missing, rest, rfl, tail, wellFormed⟩
    exact ⟨byte :: missing, rest, rfl, .cons head tail, wellFormed⟩

/-- **First bytes.** A first byte is followed by what its row asks for. -/
theorem following?_eq_some_iff {byte : UInt8} {expected : List (UInt8 × UInt8)} :
    following? byte = some expected ↔ ∃ range, range :: expected ∈ rows ∧ Within range byte := by
  let continued (byte : UInt8) (row : List (UInt8 × UInt8)) : Option (List (UInt8 × UInt8)) :=
    if row.head?.any (fun range => Within range byte) then some row.tail else none
  have table : ∀ n < 256,
      (following? (.ofNat n)).toList = rows.filterMap (continued (.ofNat n)) := by
    decide +kernel
  have same : (following? byte).toList = rows.filterMap (continued byte) := by
    simpa using table byte.toNat byte.toNat_lt
  rw [← Option.mem_toList, same, List.mem_filterMap]
  constructor
  · rintro ⟨row, mem, found⟩
    cases row with
    | nil => cases found
    | cons range others =>
      obtain ⟨within, rfl⟩ : Within range byte ∧ others = expected := by
        simpa [continued] using found
      exact ⟨range, mem, within⟩
  · rintro ⟨range, mem, within⟩
    exact ⟨range :: expected, mem, if_pos (by simpa using within)⟩

/-- Well-formed bytes start with a first byte, and what it asks for follows. -/
theorem wellFormed_cons_iff {byte : UInt8} {bytes : List UInt8} :
    WellFormed (byte :: bytes) ↔
      ∃ expected, following? byte = some expected ∧ Completes expected bytes := by
  constructor
  · intro wellFormed
    generalize whole : byte :: bytes = text at wellFormed
    cases wellFormed with
    | nil => cases whole
    | append mem within wellFormed =>
      cases within with
      | nil => simp [rows] at mem
      | cons head tail =>
        obtain ⟨rfl, rfl⟩ := List.cons.inj whole
        exact ⟨_, following?_eq_some_iff.mpr ⟨_, mem, head⟩, _, _, rfl, tail, wellFormed⟩
  · rintro ⟨expected, follows, missing, rest, rfl, tail, wellFormed⟩
    obtain ⟨range, mem, head⟩ := following?_eq_some_iff.mp follows
    exact .append mem (.cons head tail) wellFormed

/-- **Faults.** No fault is found exactly in bytes that complete what has been started. -/
theorem fault?_eq_none_iff (index start : Nat) (expected : List (UInt8 × UInt8))
    (bytes : List UInt8) : fault? index start expected bytes = none ↔ Completes expected bytes := by
  induction bytes generalizing index start expected with
  | nil =>
    rw [fault?]
    constructor
    · intro h
      have done : expected = [] := by simpa using h
      rw [done, completes_nil_iff]
      exact .nil
    · intro completes
      rw [if_pos (eq_nil_of_completes completes)]
  | cons byte bytes ih =>
    cases expected with
    | nil =>
      rw [fault?, completes_nil_iff, wellFormed_cons_iff]
      rcases following? byte with _ | expected
      · simp
      · simp [ih]
    | cons range expected =>
      rw [fault?, completes_cons_iff]
      split
      · next within =>
        rw [ih]
        exact (and_iff_right within).symm
      · next outside => exact iff_of_false nofun fun completes => outside completes.1

instance {bytes : List UInt8} : Decidable (WellFormed bytes) :=
  decidable_of_iff (fault? 0 0 [] bytes = none)
    ((fault?_eq_none_iff 0 0 [] bytes).trans completes_nil_iff)

/-- An overlong form, a surrogate, a value beyond the last code point and a character that is cut
short. -/
example : ¬ WellFormed [0xC0, 0x80] ∧ ¬ WellFormed [0xED, 0xA0, 0x80] ∧
    ¬ WellFormed [0xF4, 0x90, 0x80, 0x80] ∧ ¬ WellFormed [0xE2, 0x82] := by decide

/-- **Refusal.** Bytes that are refused have a fault, and it is the one that they are refused
with. -/
theorem decode_eq_error_iff {bytes : List UInt8} {fault : Fault} :
    decode bytes = .error fault ↔ fault? 0 0 [] bytes = some fault := by
  have none_iff : fault? 0 0 [] bytes = none ↔ (pack bytes).IsValidUTF8 := by
    rw [fault?_eq_none_iff, completes_nil_iff, isValidUTF8_pack_iff]
  rw [decode]
  split
  · next valid => simp [none_iff.mpr valid]
  · next invalid =>
    rcases found : fault? 0 0 [] bytes with _ | first
    · exact absurd (none_iff.mp found) invalid
    · simp

end Utf8

end FilterQuery
