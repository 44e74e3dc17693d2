import FilterQuery.Proofs.Except
import FilterQuery.Text.Base64

/-!
# Base64 is canonical

Reading accepts exactly the texts that writing produces (`Base64.decode_eq_ok_iff`). So every
sequence of bytes has one base64 text, and no text with padding missing or out of place or with
bits left over stands for anything.

The alphabet enters through `value?_eq_some_iff` alone. Three bytes are the same as four values
below 64 (`exists_join`, `written_join`); one or two bytes are the same as two or three values of
which the last has no bits left over. A group before the last is read by one equation in both
directions (`decodeGroups_cons`), and what a last group looks like is said by what is found in it
(`eq_of_readLastGroup`).
-/

namespace FilterQuery

namespace Base64

/-! ### Symbols -/

/-- The byte that writes the symbol of a value. -/
def symbolByte (value : Nat) : UInt8 := .ofNat (symbol value).toNat

theorem value?_symbolByte {value : Nat} (lt : value < 64) :
    value? (symbolByte value) = some value := by
  have all : ∀ value < 64, value? (symbolByte value) = some value := by decide +kernel
  exact all value lt

/-- **Symbols.** A byte has a value exactly if it writes the symbol of the value. -/
theorem value?_eq_some_iff {byte : UInt8} {value : Nat} :
    value? byte = some value ↔ value < 64 ∧ byte = symbolByte value := by
  constructor
  · intro h
    obtain ⟨lt, same, -⟩ := List.findIdx?_eq_some_iff_getElem.mp h
    have size : alphabet.length = 64 := by decide +kernel
    have char : alphabet[value].toNat = byte.toNat := by simpa using same
    refine ⟨size ▸ lt, ?_⟩
    rw [symbolByte, symbol, List.getD_eq_getElem?_getD, List.getElem?_eq_getElem lt,
      Option.getD_some, char, UInt8.ofNat_toNat]
  · rintro ⟨lt, rfl⟩
    exact value?_symbolByte lt

/-- Padding is no symbol. -/
theorem symbolByte_ne_padding {value : Nat} (lt : value < 64) : symbolByte value ≠ padding := by
  intro eq
  have absent : value? padding = none := by decide +kernel
  rw [← eq, value?_symbolByte lt] at absent
  cases absent

theorem valueAt_eq_ok_iff {offset : Nat} {byte : UInt8} {value : Nat} :
    valueAt offset byte = .ok value ↔ value < 64 ∧ byte = symbolByte value := by
  rw [← value?_eq_some_iff, valueAt]
  cases value? byte <;> simp

theorem valueAt_symbolByte {value : Nat} (lt : value < 64) (offset : Nat) :
    valueAt offset (symbolByte value) = .ok value :=
  valueAt_eq_ok_iff.mpr ⟨lt, rfl⟩

/-! ### Written forms -/

/-- The bytes of the base64 text of bytes. -/
def written (bytes : List UInt8) : List UInt8 := (encode bytes).map fun c => .ofNat c.toNat

theorem written_cons (a b c : UInt8) (bytes : List UInt8) :
    written (a :: b :: c :: bytes) =
      symbolByte (a.toNat / 4) :: symbolByte (a.toNat % 4 * 16 + b.toNat / 16) ::
        symbolByte (b.toNat % 16 * 4 + c.toNat / 64) :: symbolByte (c.toNat % 64) ::
          written bytes := rfl

theorem written_two (a b : UInt8) :
    written [a, b] = [symbolByte (a.toNat / 4), symbolByte (a.toNat % 4 * 16 + b.toNat / 16),
      symbolByte (b.toNat % 16 * 4), padding] := rfl

theorem written_one (a : UInt8) :
    written [a] = [symbolByte (a.toNat / 4), symbolByte (a.toNat % 4 * 16), padding, padding] :=
  rfl

/-- A number below 256 is that of its byte. -/
private theorem toNat_byte {n : Nat} (lt : n < 256) : (UInt8.ofNat n).toNat = n :=
  UInt8.toNat_ofNat_of_lt' lt

section Groups

variable {p q r s : Nat}

/-- The symbols of three bytes are those of the values that the bytes are joined from. -/
theorem written_join (hp : p < 64) (hq : q < 64) (hr : r < 64) (hs : s < 64)
    (bytes : List UInt8) :
    written (join p q r s ++ bytes) =
      symbolByte p :: symbolByte q :: symbolByte r :: symbolByte s :: written bytes := by
  have ha := toNat_byte (n := p * 4 + q / 16) (by omega)
  have hb := toNat_byte (n := q % 16 * 16 + r / 4) (by omega)
  have hc := toNat_byte (n := r % 4 * 64 + s) (by omega)
  have first : (p * 4 + q / 16) / 4 = p := by omega
  have second : (p * 4 + q / 16) % 4 * 16 + (q % 16 * 16 + r / 4) / 16 = q := by omega
  have third : (q % 16 * 16 + r / 4) % 16 * 4 + (r % 4 * 64 + s) / 64 = r := by omega
  have fourth : (r % 4 * 64 + s) % 64 = s := by omega
  rw [join, List.cons_append, List.cons_append, List.cons_append, List.nil_append, written_cons,
    ha, hb, hc, first, second, third, fourth]

/-- The symbols of two bytes, if no bits are left over. -/
theorem written_take_two (hp : p < 64) (hq : q < 64) (hr : r < 64) (whole : r % 4 = 0) :
    written ((join p q r 0).take 2) = [symbolByte p, symbolByte q, symbolByte r, padding] := by
  have ha := toNat_byte (n := p * 4 + q / 16) (by omega)
  have hb := toNat_byte (n := q % 16 * 16 + r / 4) (by omega)
  have first : (p * 4 + q / 16) / 4 = p := by omega
  have second : (p * 4 + q / 16) % 4 * 16 + (q % 16 * 16 + r / 4) / 16 = q := by omega
  have third : (q % 16 * 16 + r / 4) % 16 * 4 = r := by omega
  rw [join, List.take_succ_cons, List.take_succ_cons, List.take_zero, written_two, ha, hb, first,
    second, third]

/-- The symbols of one byte, if no bits are left over. -/
theorem written_take_one (hp : p < 64) (hq : q < 64) (whole : q % 16 = 0) :
    written ((join p q 0 0).take 1) = [symbolByte p, symbolByte q, padding, padding] := by
  have ha := toNat_byte (n := p * 4 + q / 16) (by omega)
  have first : (p * 4 + q / 16) / 4 = p := by omega
  have second : (p * 4 + q / 16) % 4 * 16 = q := by omega
  rw [join, List.take_succ_cons, List.take_zero, written_one, ha, first, second]

end Groups

/-- Three bytes are joined from four values. -/
theorem exists_join (a b c : UInt8) :
    ∃ p q r s, (p < 64 ∧ q < 64 ∧ r < 64 ∧ s < 64) ∧ [a, b, c] = join p q r s := by
  have ha := a.toNat_lt
  have hb := b.toNat_lt
  have hc := c.toNat_lt
  refine ⟨a.toNat / 4, a.toNat % 4 * 16 + b.toNat / 16, b.toNat % 16 * 4 + c.toNat / 64,
    c.toNat % 64, by omega, ?_⟩
  have first : a.toNat / 4 * 4 + (a.toNat % 4 * 16 + b.toNat / 16) / 16 = a.toNat := by omega
  have second : (a.toNat % 4 * 16 + b.toNat / 16) % 16 * 16 +
      (b.toNat % 16 * 4 + c.toNat / 64) / 4 = b.toNat := by omega
  have third : (b.toNat % 16 * 4 + c.toNat / 64) % 4 * 64 + c.toNat % 64 = c.toNat := by omega
  rw [join, first, second, third, UInt8.ofNat_toNat, UInt8.ofNat_toNat, UInt8.ofNat_toNat]

/-- Two bytes are joined from three values, and no bits are left over. -/
theorem exists_join_two (a b : UInt8) :
    ∃ p q r, (p < 64 ∧ q < 64 ∧ r < 64 ∧ r % 4 = 0) ∧ [a, b] = (join p q r 0).take 2 := by
  have ha := a.toNat_lt
  have hb := b.toNat_lt
  refine ⟨a.toNat / 4, a.toNat % 4 * 16 + b.toNat / 16, b.toNat % 16 * 4, by omega, ?_⟩
  have first : a.toNat / 4 * 4 + (a.toNat % 4 * 16 + b.toNat / 16) / 16 = a.toNat := by omega
  have second : (a.toNat % 4 * 16 + b.toNat / 16) % 16 * 16 + b.toNat % 16 * 4 / 4 = b.toNat := by
    omega
  rw [join, first, second, UInt8.ofNat_toNat, UInt8.ofNat_toNat, List.take_succ_cons,
    List.take_succ_cons, List.take_zero]

/-- One byte is joined from two values, and no bits are left over. -/
theorem exists_join_one (a : UInt8) :
    ∃ p q, (p < 64 ∧ q < 64 ∧ q % 16 = 0) ∧ [a] = (join p q 0 0).take 1 := by
  have ha := a.toNat_lt
  refine ⟨a.toNat / 4, a.toNat % 4 * 16, by omega, ?_⟩
  have first : a.toNat / 4 * 4 + a.toNat % 4 * 16 / 16 = a.toNat := by omega
  rw [join, first, UInt8.ofNat_toNat, List.take_succ_cons, List.take_zero]

/-- The text of bytes is made of groups of four. -/
theorem length_written : ∀ bytes : List UInt8, (written bytes).length % 4 = 0
  | [] => rfl
  | [a] => by simp [written_one]
  | [a, b] => by simp [written_two]
  | a :: b :: c :: bytes => by
    have ih := length_written bytes
    rw [written_cons]
    simp only [List.length_cons]
    omega

/-! ### The last group -/

theorem eq_replicate_of_readPadding {first count : Nat} {bytes : List UInt8}
    (h : readPadding first bytes = .ok count) : bytes = List.replicate count padding := by
  induction bytes generalizing count with
  | nil =>
    cases h
    rfl
  | cons byte bytes ih =>
    rw [readPadding] at h
    split at h
    · next eq =>
      obtain ⟨rest, hrest, ⟨⟩⟩ := Except.bind_eq_ok_iff.mp h
      rw [eq, ih hrest, List.replicate_succ]
    · cases h

/-- **Last groups.** What is read as a last group are the bytes of its symbols, then padding. -/
theorem eq_of_readLastGroup {start place : Nat} {bytes : List UInt8} {group : LastGroup}
    (h : readLastGroup start place bytes = .ok group) :
    bytes = group.symbols.map Prod.fst ++ List.replicate group.padded padding ∧
      ∀ symbol ∈ group.symbols, symbol.2 < 64 ∧ symbol.1 = symbolByte symbol.2 := by
  induction bytes generalizing place group with
  | nil =>
    cases h
    exact ⟨rfl, nofun⟩
  | cons byte bytes ih =>
    rw [readLastGroup] at h
    split at h
    · next eq =>
      split at h
      · cases h
      · obtain ⟨count, hcount, ⟨⟩⟩ := Except.bind_eq_ok_iff.mp h
        refine ⟨?_, nofun⟩
        rw [eq, eq_replicate_of_readPadding hcount, List.map_nil, List.nil_append,
          List.replicate_succ]
    · obtain ⟨value, hvalue, h⟩ := Except.bind_eq_ok_iff.mp h
      obtain ⟨rest, hrest, ⟨⟩⟩ := Except.bind_eq_ok_iff.mp h
      obtain ⟨same, symbols⟩ := ih hrest
      refine ⟨?_, List.forall_mem_cons.mpr ⟨valueAt_eq_ok_iff.mp hvalue, symbols⟩⟩
      rw [List.map_cons, List.cons_append, ← same]

section LastGroup

variable {p q r s : Nat} (start : Nat)

theorem decodeLastGroup_three (hp : p < 64) (hq : q < 64) (hr : r < 64) (hs : s < 64) :
    decodeLastGroup start [symbolByte p, symbolByte q, symbolByte r, symbolByte s] =
      .ok (join p q r s) := by
  simp [decodeLastGroup, readLastGroup, symbolByte_ne_padding, valueAt_symbolByte, hp, hq, hr, hs,
    bind, Except.bind, pure, Except.pure]

theorem decodeLastGroup_two (hp : p < 64) (hq : q < 64) (hr : r < 64) (whole : r % 4 = 0) :
    decodeLastGroup start [symbolByte p, symbolByte q, symbolByte r, padding] =
      .ok ((join p q r 0).take 2) := by
  simp [decodeLastGroup, readLastGroup, readPadding, symbolByte_ne_padding, valueAt_symbolByte, hp,
    hq, hr, whole, bind, Except.bind, pure, Except.pure]

theorem decodeLastGroup_one (hp : p < 64) (hq : q < 64) (whole : q % 16 = 0) :
    decodeLastGroup start [symbolByte p, symbolByte q, padding, padding] =
      .ok ((join p q 0 0).take 1) := by
  simp [decodeLastGroup, readLastGroup, readPadding, symbolByte_ne_padding, valueAt_symbolByte, hp,
    hq, whole, bind, Except.bind, pure, Except.pure]

end LastGroup

/-- What a last group of at most four bytes stands for is written by the group. -/
theorem eq_written_of_decodeLastGroup {start : Nat} {text bytes : List UInt8}
    (short : text.length ≤ 4) (h : decodeLastGroup start text = .ok bytes) :
    text = written bytes := by
  obtain ⟨⟨symbols, padded⟩, hgroup, h⟩ := Except.bind_eq_ok_iff.mp h
  obtain ⟨rfl, values⟩ := eq_of_readLastGroup hgroup
  dsimp only at h values short
  split at h
  · cases h
  next enough =>
  split at h
  · cases h
  next whole =>
  simp only [List.length_append, List.length_map, List.length_replicate] at short
  -- A group has two, three or four symbols; padding fills it up.
  match symbols with
  | [] =>
    cases h
    have empty : List.replicate padded padding = [] := by simpa using enough
    rw [List.map_nil, List.nil_append, empty]
    rfl
  | [_] => simp at enough
  | [(a, p), (b, q)] =>
    simp only [List.forall_mem_cons] at values
    obtain ⟨⟨hp, rfl⟩, ⟨hq, rfl⟩, -⟩ := values
    obtain rfl : padded = 2 := by
      simp only [List.length_cons, List.length_nil] at whole short
      omega
    dsimp only at h
    split at h
    · cases h
    next left =>
    cases h
    exact (written_take_one hp hq (by omega)).symm
  | [(a, p), (b, q), (c, r)] =>
    simp only [List.forall_mem_cons] at values
    obtain ⟨⟨hp, rfl⟩, ⟨hq, rfl⟩, ⟨hr, rfl⟩, -⟩ := values
    obtain rfl : padded = 1 := by
      simp only [List.length_cons, List.length_nil] at whole short
      omega
    dsimp only at h
    split at h
    · cases h
    next left =>
    cases h
    exact (written_take_two hp hq hr (by omega)).symm
  | [(a, p), (b, q), (c, r), (d, s)] =>
    simp only [List.forall_mem_cons] at values
    obtain ⟨⟨hp, rfl⟩, ⟨hq, rfl⟩, ⟨hr, rfl⟩, ⟨hs, rfl⟩, -⟩ := values
    obtain rfl : padded = 0 := by
      simp only [List.length_cons, List.length_nil] at short
      omega
    cases h
    exact (written_join hp hq hr hs []).symm
  | _ :: _ :: _ :: _ :: _ :: _ =>
    simp only [List.length_cons] at short
    omega

/-! ### Texts -/

/-- A group is read, then the groups after it. -/
theorem decodeGroups_cons {p q r s : Nat} (hp : p < 64) (hq : q < 64) (hr : r < 64) (hs : s < 64)
    (start : Nat) (text : List UInt8) :
    decodeGroups start (symbolByte p :: symbolByte q :: symbolByte r :: symbolByte s :: text) =
      (join p q r s ++ ·) <$> decodeGroups (start + 4) text := by
  cases text with
  | nil => exact decodeLastGroup_three start hp hq hr hs
  | cons next text =>
    rw [decodeGroups, valueAt_symbolByte hp, valueAt_symbolByte hq, valueAt_symbolByte hr,
      valueAt_symbolByte hs]
    rfl

/-- What is written is read. -/
theorem decodeGroups_written :
    ∀ (start : Nat) (bytes : List UInt8), decodeGroups start (written bytes) = .ok bytes
  | _, [] => rfl
  | start, [a] => by
    obtain ⟨p, q, ⟨hp, hq, whole⟩, eq⟩ := exists_join_one a
    rw [eq, written_take_one hp hq whole]
    exact decodeLastGroup_one start hp hq whole
  | start, [a, b] => by
    obtain ⟨p, q, r, ⟨hp, hq, hr, whole⟩, eq⟩ := exists_join_two a b
    rw [eq, written_take_two hp hq hr whole]
    exact decodeLastGroup_two start hp hq hr whole
  | start, a :: b :: c :: bytes => by
    obtain ⟨p, q, r, s, ⟨hp, hq, hr, hs⟩, eq⟩ := exists_join a b c
    have split : a :: b :: c :: bytes = join p q r s ++ bytes := congrArg (· ++ bytes) eq
    rw [split, written_join hp hq hr hs, decodeGroups_cons hp hq hr hs,
      decodeGroups_written (start + 4) bytes]
    rfl

/-- What is read was written. -/
theorem eq_written_of_decodeGroups {start : Nat} {text bytes : List UInt8}
    (h : decodeGroups start text = .ok bytes) : text = written bytes := by
  induction start, text using decodeGroups.induct generalizing bytes with
  | case1 start a b c d next text ih =>
    rw [decodeGroups] at h
    obtain ⟨p, ha, h⟩ := Except.bind_eq_ok_iff.mp h
    obtain ⟨q, hb, h⟩ := Except.bind_eq_ok_iff.mp h
    obtain ⟨r, hc, h⟩ := Except.bind_eq_ok_iff.mp h
    obtain ⟨s, hd, h⟩ := Except.bind_eq_ok_iff.mp h
    obtain ⟨rest, hrest, ⟨⟩⟩ := Except.bind_eq_ok_iff.mp h
    obtain ⟨hp, rfl⟩ := valueAt_eq_ok_iff.mp ha
    obtain ⟨hq, rfl⟩ := valueAt_eq_ok_iff.mp hb
    obtain ⟨hr, rfl⟩ := valueAt_eq_ok_iff.mp hc
    obtain ⟨hs, rfl⟩ := valueAt_eq_ok_iff.mp hd
    rw [written_join hp hq hr hs, ← ih hrest]
  | case2 start text notFive =>
    have short : text.length ≤ 4 := by
      match text with
      | [] | [_] | [_, _] | [_, _, _] | [_, _, _, _] => simp
      | a :: b :: c :: d :: next :: text => exact (notFive a b c d next text rfl).elim
    rw [decodeGroups] at h
    · exact eq_written_of_decodeLastGroup short h
    · exact notFive

/-- **Base64.** A text is read exactly if it is the written form of what is read. -/
theorem decode_eq_ok_iff {text bytes : List UInt8} :
    decode text = .ok bytes ↔ text = written bytes := by
  constructor
  · intro h
    unfold decode at h
    split at h
    · cases h
    · exact eq_written_of_decodeGroups h
  · rintro rfl
    have whole : strayLast? (written bytes) = none := by
      rw [strayLast?, length_written]
      rfl
    rw [decode, whole]
    exact decodeGroups_written 0 bytes

end Base64

end FilterQuery
