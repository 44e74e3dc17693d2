import FilterQuery.Proofs.Options
import Mathlib.Data.List.DropRight
import Mathlib.Data.Nat.Digits.Defs

/-!
# Overriding options

What the two environment variables may hold is told by two small grammars: a flag is one of two
words in letters of either case (`WritesFlag`), a count is a row of decimal digits with at most a
plus sign before (`WritesCount`), and blanks may stand around both. Each is read exactly if it is
written so, and a count moreover only if it has 64 bits (`readFlag?_eq_some_iff`,
`readCount?_eq_some_iff`). The flag `true` stands for the strict policy, and the flag `false` for
the lenient one (`Options.WritesPolicy`).

From this follows what becomes of options under every environment (`Options.override_written`): when
they are overridden, with which policy and depth, and otherwise which of the two variables is to
blame.
-/

namespace FilterQuery

/-! ### Words between blanks -/

namespace Text

/-- **Padding.** The text is the word with blanks around it. -/
def Pads (text : String) (word : List Char) : Prop :=
  ∃ before after, text.toList = before ++ word ++ after ∧ ∀ c ∈ before ++ after, isBlank c

theorem toList_trim (text : String) :
    (trim text).toList = (text.toList.dropWhile isBlank).rdropWhile isBlank := by
  rw [trim, String.toList_ofList, List.rdropWhile]

/-- Trimming takes blanks away and nothing else. -/
theorem pads_trim (text : String) : Pads text (trim text).toList := by
  let rest := text.toList.dropWhile isBlank
  refine ⟨text.toList.takeWhile isBlank, rest.rtakeWhile isBlank, ?_, fun c mem => ?_⟩
  · rw [toList_trim, List.append_assoc, List.rdropWhile_append_rtakeWhile,
      List.takeWhile_append_dropWhile]
  · rcases List.mem_append.mp mem with mem | mem
    · exact List.mem_takeWhile_imp mem
    · exact List.mem_rtakeWhile_imp mem

/-- There are no blanks to drop before a word without blanks. -/
private theorem dropWhile_word {word : List Char} (ne : word ≠ [])
    (solid : ∀ c ∈ word, isBlank c = false) (rest : List Char) :
    (word ++ rest).dropWhile isBlank = word ++ rest := by
  cases word with
  | nil => exact absurd rfl ne
  | cons c word => exact List.dropWhile_cons_of_neg (by simp [solid])

/-- Trimming takes away all blanks around a word without blanks. -/
theorem toList_trim_of_pads {text : String} {word : List Char} (pads : Pads text word)
    (ne : word ≠ []) (solid : ∀ c ∈ word, isBlank c = false) : (trim text).toList = word := by
  obtain ⟨before, after, split, blank⟩ := pads
  obtain ⟨earlier, later⟩ := List.forall_mem_append.mp blank
  have backwards : (word.reverse ++ []).dropWhile isBlank = word.reverse ++ [] :=
    dropWhile_word (List.reverse_ne_nil_iff.mpr ne) (by simpa using solid) []
  rw [List.append_nil] at backwards
  rw [toList_trim, split, List.append_assoc, List.dropWhile_append_of_pos earlier,
    dropWhile_word ne solid, List.rdropWhile, List.reverse_append,
    List.dropWhile_append_of_pos (by simpa using later), backwards, List.reverse_reverse]

/-- Visible characters of ASCII are no blanks. -/
theorem isBlank_of_visible {c : Char} (gt : 0x20 < c.toNat) (lt : c.toNat < 0x7F) :
    isBlank c = false := by
  have outside : ∀ range ∈ blankRanges, range.2 ≤ 0x20 ∨ 0x7F ≤ range.1 := by decide
  refine Bool.eq_false_iff.mpr fun blank => ?_
  obtain ⟨range, mem, within⟩ := List.any_eq_true.mp blank
  rw [Bool.and_eq_true, decide_eq_true_eq, decide_eq_true_eq] at within
  have := outside range mem
  omega

theorem isBlank_of_isDigit {c : Char} (digit : c.isDigit) : isBlank c = false := by
  rw [Char.isDigit, Bool.and_eq_true, decide_eq_true_eq, decide_eq_true_eq] at digit
  have bounds : 48 ≤ c.toNat ∧ c.toNat ≤ 57 := digit
  exact isBlank_of_visible (by omega) (by omega)

end Text

/-! ### Letters of either case -/

private theorem isLower_iff {c : Char} : c.isLower ↔ 97 ≤ c.toNat ∧ c.toNat ≤ 122 := by
  have bounds : c.isLower = (decide (97 ≤ c.toNat) && decide (c.toNat ≤ 122)) := rfl
  rw [bounds, Bool.and_eq_true, decide_eq_true_eq, decide_eq_true_eq]

private theorem toNat_toUpper {c : Char} (lower : c.isLower) :
    c.toUpper.toNat = c.toNat - 32 := by
  obtain ⟨ge, le⟩ := isLower_iff.mp lower
  have capital : c.toUpper = ⟨c.val + ('A'.val - 'a'.val), _⟩ := dif_pos ⟨ge, le⟩
  have wraps : (c.toNat + 4294967264) % 2 ^ 32 = c.toNat - 32 := by omega
  rw [capital]
  exact (UInt32.toNat_add ..).trans wraps

private theorem toNat_toLower (c : Char) :
    c.toLower.toNat = if 65 ≤ c.toNat ∧ c.toNat ≤ 90 then c.toNat + 32 else c.toNat := by
  by_cases capital : 65 ≤ c.toNat ∧ c.toNat ≤ 90
  · have lowered : c.toLower = ⟨c.val + ('a'.val - 'A'.val), _⟩ := dif_pos capital
    have fits : (c.toNat + 32) % 2 ^ 32 = c.toNat + 32 := by omega
    rw [lowered, if_pos capital]
    exact (UInt32.toNat_add ..).trans fits
  · have kept : c.toLower = c := dif_neg capital
    rw [kept, if_neg capital]

/-- A character has a letter as its lower case if it is the letter, or the capital of it. -/
theorem toLower_eq_iff {c letter : Char} (lower : letter.isLower) :
    c.toLower = letter ↔ c = letter ∨ c = letter.toUpper := by
  obtain ⟨ge, le⟩ := isLower_iff.mp lower
  rw [← Char.toNat_inj, ← Char.toNat_inj, ← Char.toNat_inj, toNat_toLower, toNat_toUpper lower]
  split <;> omega

/-! ### Flags -/

/-- The word for a truth value. -/
def flagWord (flag : Bool) : String := if flag then "true" else "false"

/-- **Flags.** The text writes the truth value: its word in letters of either case, with blanks
around it. No character but these has one of the letters as its lower case. -/
def WritesFlag (text : String) (flag : Bool) : Prop :=
  ∃ word, Text.Pads text word ∧
    List.Forall₂ (fun c letter => c = letter ∨ c = letter.toUpper) word (flagWord flag).toList

theorem isLower_of_mem_flagWord {flag : Bool} :
    ∀ letter ∈ (flagWord flag).toList, letter.isLower := by
  have all : (flagWord flag).toList.all Char.isLower := by cases flag <;> decide
  exact List.all_eq_true.mp all

/-- The letters of a word in either case are the characters that are its letters in lower case. -/
theorem map_toLower_eq_iff {word letters : List Char} (lower : ∀ letter ∈ letters, letter.isLower) :
    word.map Char.toLower = letters ↔
      List.Forall₂ (fun c letter => c = letter ∨ c = letter.toUpper) word letters := by
  induction letters generalizing word with
  | nil => rw [List.map_eq_nil_iff, List.forall₂_nil_right_iff]
  | cons letter letters ih =>
    obtain ⟨head, tail⟩ := List.forall_mem_cons.mp lower
    cases word with
    | nil => simp
    | cons c word => rw [List.map_cons, List.cons.injEq, toLower_eq_iff head, ih tail,
        List.forall₂_cons]

/-- Letters are no blanks. -/
theorem isBlank_of_letters {word letters : List Char} (lower : ∀ letter ∈ letters, letter.isLower)
    (spells : List.Forall₂ (fun c letter => c = letter ∨ c = letter.toUpper) word letters) :
    ∀ c ∈ word, Text.isBlank c = false := by
  induction spells with
  | nil => exact nofun
  | @cons c letter word letters own _ ih =>
    obtain ⟨head, tail⟩ := List.forall_mem_cons.mp lower
    refine List.forall_mem_cons.mpr ⟨?_, ih tail⟩
    obtain ⟨ge, le⟩ := isLower_iff.mp head
    rcases own with rfl | rfl
    · exact Text.isBlank_of_visible (by omega) (by omega)
    · have capital := toNat_toUpper head
      exact Text.isBlank_of_visible (by omega) (by omega)

/-- A flag is read from the word that is left of the text in lower case. -/
theorem readFlag?_eq_some_iff_map {text : String} {flag : Bool} :
    readFlag? text = some flag ↔
      (Text.trim text).toList.map Char.toLower = (flagWord flag).toList := by
  have word (letters : String) : Text.lower (Text.trim text) = letters ↔
      (Text.trim text).toList.map Char.toLower = letters.toList := by
    rw [← String.toList_inj, Text.lower, String.toList_ofList]
  rw [← word, readFlag?]
  split
  · next isTrue => cases flag <;> simp [isTrue, flagWord]
  · next isFalse => cases flag <;> simp [isFalse, flagWord]
  · next noTrue noFalse =>
    cases flag
    · simpa [flagWord] using noFalse
    · simpa [flagWord] using noTrue

/-- **Reading flags.** A truth value is read exactly from the texts that write it. -/
theorem readFlag?_eq_some_iff {text : String} {flag : Bool} :
    readFlag? text = some flag ↔ WritesFlag text flag := by
  rw [readFlag?_eq_some_iff_map, map_toLower_eq_iff isLower_of_mem_flagWord]
  constructor
  · exact fun spells => ⟨_, Text.pads_trim text, spells⟩
  · rintro ⟨word, pads, spells⟩
    have ne : word ≠ [] := by
      rintro rfl
      cases flag <;> cases spells
    rwa [Text.toList_trim_of_pads pads ne (isBlank_of_letters isLower_of_mem_flagWord spells)]

/-! ### Counts -/

/-- The number that decimal digits write. -/
def decimalValue (digits : List Char) : Nat :=
  Nat.ofDigits 10 (digits.reverse.map fun c => c.toNat - '0'.toNat)

/-- **Counts.** The text writes the number: decimal digits, at least one of them, with at most a
plus sign before and blanks around. -/
def WritesCount (text : String) (count : Nat) : Prop :=
  ∃ sign digits, Text.Pads text (sign ++ digits) ∧ (sign = [] ∨ sign = ['+']) ∧ digits ≠ [] ∧
    (∀ c ∈ digits, c.isDigit) ∧ count = decimalValue digits

/-- Reading digits one by one gives the number that they write. -/
theorem foldl_eq_decimalValue (digits : List Char) :
    digits.foldl (fun n c => 10 * n + (c.toNat - '0'.toNat)) 0 = decimalValue digits := by
  rw [decimalValue, Nat.ofDigits_eq_foldr, List.foldr_map, List.foldr_reverse]
  simp only [Nat.cast_id, Nat.add_comm]

/-- The characters that come after a plus sign, if there is one. -/
def afterSign : List Char → List Char
  | '+' :: rest => rest
  | rest => rest

theorem exists_sign (word : List Char) :
    ∃ sign, word = sign ++ afterSign word ∧ (sign = [] ∨ sign = ['+']) := by
  unfold afterSign
  split
  · exact ⟨['+'], rfl, .inr rfl⟩
  · exact ⟨[], rfl, .inl rfl⟩

/-- A digit is no sign. -/
theorem afterSign_append {sign digits : List Char} (signed : sign = [] ∨ sign = ['+'])
    (decimal : ∀ c ∈ digits, c.isDigit) : afterSign (sign ++ digits) = digits := by
  rcases signed with rfl | rfl
  · rw [List.nil_append, afterSign.eq_def]
    split
    · exact absurd (decimal _ List.mem_cons_self) (by decide)
    · rfl
  · rfl

/-- A count is read from the digits after the sign. -/
theorem readCount?_eq_some_iff_afterSign {text : String} {count : Nat} :
    readCount? text = some count ↔
      let digits := afterSign (Text.trim text).toList
      (digits ≠ [] ∧ digits.all Char.isDigit) ∧ decimalValue digits < UInt64.size ∧
        decimalValue digits = count := by
  unfold readCount?
  generalize (Text.trim text).toList = word
  simp only [foldl_eq_decimalValue, Option.ite_none_right_eq_some, Option.some.injEq]
  exact Iff.rfl

/-- **Reading counts.** A number is read exactly from the texts that write it, if it has no more
than 64 bits. -/
theorem readCount?_eq_some_iff {text : String} {count : Nat} :
    readCount? text = some count ↔ WritesCount text count ∧ count < 2 ^ 64 := by
  have size : UInt64.size = 2 ^ 64 := rfl
  rw [readCount?_eq_some_iff_afterSign, size]
  constructor
  · rintro ⟨⟨ne, decimal⟩, lt, rfl⟩
    obtain ⟨sign, split, signed⟩ := exists_sign (Text.trim text).toList
    have pads := Text.pads_trim text
    rw [split] at pads
    exact ⟨⟨sign, _, pads, signed, ne, List.all_eq_true.mp decimal, rfl⟩, lt⟩
  · rintro ⟨⟨sign, digits, pads, signed, ne, decimal, rfl⟩, lt⟩
    have solid : ∀ c ∈ sign ++ digits, Text.isBlank c = false := by
      refine List.forall_mem_append.mpr ⟨fun c mem => ?_, fun c mem => ?_⟩
      · rcases signed with rfl | rfl
        · cases mem
        · rw [List.mem_singleton.mp mem]
          decide
      · exact Text.isBlank_of_isDigit (decimal c mem)
    have word := Text.toList_trim_of_pads pads (List.append_ne_nil_of_right_ne_nil sign ne) solid
    rw [word, afterSign_append signed decimal]
    exact ⟨⟨ne, List.all_eq_true.mpr decimal⟩, lt, rfl⟩

/-! ### Overriding -/

namespace Options

/-- **Given values.** What a variable gives in place of a value: what its text writes if it is set,
and otherwise the value. -/
def Gives {α : Type} (Writes : String → α → Prop) : Option String → α → α → Prop
  | none, value, given => given = value
  | some text, _, given => Writes text given

theorem Gives.mono {α : Type} {Writes Writes' : String → α → Prop} {set : Option String}
    {value given : α} (gives : Gives Writes set value given)
    (le : ∀ text given, Writes text given → Writes' text given) :
    Gives Writes' set value given := by
  cases set with
  | none => exact gives
  | some text => exact le text given gives

/-- **Policies.** The text writes the policy: the strict one as the flag `true`, and the lenient one
as the flag `false`. -/
def WritesPolicy (text : String) : IdentifierPolicy → Prop
  | .strict => WritesFlag text true
  | .lenient => WritesFlag text false

/-- The text writes a number of 64 bits. -/
def WritesDepth (text : String) (depth : Nat) : Prop := WritesCount text depth ∧ depth < 2 ^ 64

section Variables

variable {α : Type} {read? : String → Option α} {Writes : String → α → Prop} {name : String}
  {kind : VariableKind} {set : Option String} {value given : α}

/-- A variable gives what its text writes, if that is how it is read. -/
theorem readVariable_eq_ok_iff (reads : ∀ text given, read? text = some given ↔ Writes text given) :
    readVariable read? name kind set value = .ok given ↔ Gives Writes set value given := by
  cases set with
  | none => rw [readVariable, Gives, Except.ok.injEq, eq_comm]
  | some text =>
    rw [Gives, ← reads]
    rcases read : read? text with _ | found
    · simp [readVariable, read]
    · simp [readVariable, read]

/-- A variable whose text writes nothing is to blame. -/
theorem readVariable_of_not_writes
    (reads : ∀ text given, read? text = some given ↔ Writes text given) {text : String}
    (nothing : ∀ given, ¬ Writes text given) :
    readVariable read? name kind (some text) value = .error (.variable name text kind) := by
  have none : read? text = none :=
    Option.eq_none_iff_forall_ne_some.mpr fun given read =>
      nothing given ((reads text given).mp read)
  rw [readVariable, none]

end Variables

/-- A policy is read from the texts that write it. -/
theorem readPolicy_eq_some_iff (text : String) (policy : IdentifierPolicy) :
    (readFlag? text).map IdentifierPolicy.ofStrict = some policy ↔ WritesPolicy text policy := by
  rw [Option.map_eq_some_iff]
  constructor
  · rintro ⟨_ | _, read, rfl⟩ <;> exact readFlag?_eq_some_iff.mp read
  · intro writes
    cases policy with
    | strict => exact ⟨true, readFlag?_eq_some_iff.mpr writes, rfl⟩
    | lenient => exact ⟨false, readFlag?_eq_some_iff.mpr writes, rfl⟩

theorem readDepth_eq_some_iff (text : String) (depth : Nat) :
    readCount? text = some depth ↔ WritesDepth text depth := readCount?_eq_some_iff

/-- Options are overridden with what the two variables give, if that grants a level. -/
theorem override_eq_ok_iff {options overridden : Options} {overrides : Overrides} :
    options.override overrides = .ok overridden ↔
      Gives WritesPolicy overrides.strictIds options.policy overridden.policy ∧
        Gives WritesDepth overrides.maxDepth options.maxDepth overridden.maxDepth ∧
          1 ≤ overridden.maxDepth := by
  simp only [override_eq, Except.bind_eq_ok_iff, readVariable_eq_ok_iff readPolicy_eq_some_iff,
    readVariable_eq_ok_iff readDepth_eq_some_iff, validate_eq_ok_iff]
  constructor
  · rintro ⟨policy, givesPolicy, depth, givesDepth, rfl, level⟩
    exact ⟨givesPolicy, givesDepth, level⟩
  · rintro ⟨givesPolicy, givesDepth, level⟩
    exact ⟨_, givesPolicy, _, givesDepth, rfl, level⟩

/-- Variables give the same again. -/
theorem override_override (options : Options) (overrides : Overrides) :
    (options.override overrides >>= fun once => once.override overrides) =
      options.override overrides := by
  have again {α : Type} {Writes : String → α → Prop} {set : Option String} {value given : α}
      (gives : Gives Writes set value given) : Gives Writes set given given := by
    cases set with
    | none => rfl
    | some text => exact gives
  rcases first : options.override overrides with error | once
  · rfl
  · obtain ⟨policy, depth, level⟩ := override_eq_ok_iff.mp first
    rw [Except.ok_bind, override_eq_ok_iff]
    exact ⟨again policy, again depth, level⟩

/-! ### Environments that override options -/

section Environments

variable {options : Options} {overrides : Overrides} {text : String}

/-- A value with a property is given exactly if one is written, where a value has the property
already. -/
theorem exists_gives_iff {α : Type} {Writes : String → α → Prop} {P : α → Prop}
    {set : Option String} {value : α} (holds : P value) :
    (∃ given, Gives Writes set value given ∧ P given) ↔
      ∀ text ∈ set, ∃ given, Writes text given ∧ P given := by
  cases set with
  | none => exact ⟨fun _ => nofun, fun _ => ⟨value, rfl, holds⟩⟩
  | some text => simp [Gives]

theorem exists_writesPolicy_iff :
    (∃ policy, WritesPolicy text policy) ↔ ∃ flag, WritesFlag text flag := by
  constructor
  · rintro ⟨_ | _, writes⟩
    · exact ⟨false, writes⟩
    · exact ⟨true, writes⟩
  · rintro ⟨_ | _, writes⟩
    · exact ⟨.lenient, writes⟩
    · exact ⟨.strict, writes⟩

/-- Some policy is given exactly if nothing is set, or a flag. -/
theorem exists_gives_policy_iff :
    (∃ policy, Gives WritesPolicy overrides.strictIds options.policy policy) ↔
      ∀ text ∈ overrides.strictIds, ∃ flag, WritesFlag text flag := by
  simp only [← exists_writesPolicy_iff]
  have given :
      (∃ policy, Gives WritesPolicy overrides.strictIds options.policy policy ∧ True) ↔ _ :=
    exists_gives_iff (P := fun _ => True) trivial
  simpa using given

/-- Options that grant a level are overridden exactly by what writes a flag and a depth. -/
theorem exists_override_iff (valid : 1 ≤ options.maxDepth) :
    (∃ overridden, options.override overrides = .ok overridden) ↔
      (∀ text ∈ overrides.strictIds, ∃ flag, WritesFlag text flag) ∧
        ∀ text ∈ overrides.maxDepth, ∃ depth, WritesDepth text depth ∧ 1 ≤ depth := by
  rw [← exists_gives_policy_iff, ← exists_gives_iff (P := (1 ≤ ·)) valid]
  simp only [override_eq_ok_iff]
  constructor
  · rintro ⟨⟨policy, depth⟩, givesPolicy, givesDepth, level⟩
    exact ⟨⟨policy, givesPolicy⟩, depth, givesDepth, level⟩
  · rintro ⟨⟨policy, givesPolicy⟩, depth, givesDepth, level⟩
    exact ⟨⟨policy, depth⟩, givesPolicy, givesDepth, level⟩

/-- What is no flag is to blame, whatever the depth. -/
theorem override_of_not_writesFlag (set : overrides.strictIds = some text)
    (nothing : ∀ flag, ¬ WritesFlag text flag) :
    options.override overrides = .error (.variable Overrides.strictIdsVariable text .flag) := by
  have noPolicy : ∀ policy, ¬ WritesPolicy text policy := fun policy writes => by
    obtain ⟨flag, writes⟩ := exists_writesPolicy_iff.mp ⟨policy, writes⟩
    exact nothing flag writes
  rw [override_eq, set, readVariable_of_not_writes readPolicy_eq_some_iff noPolicy,
    Except.error_bind]

/-- Where a policy is given, the depth decides. -/
theorem override_of_gives_policy {policy : IdentifierPolicy}
    (gives : Gives WritesPolicy overrides.strictIds options.policy policy) :
    options.override overrides = (do
      let maxDepth ← readVariable readCount? Overrides.maxDepthVariable .count
        overrides.maxDepth options.maxDepth
      validate ⟨policy, maxDepth⟩) := by
  rw [override_eq, (readVariable_eq_ok_iff readPolicy_eq_some_iff).mpr gives, Except.ok_bind]

end Environments

/-- **Overriding.** Options that grant a level are overridden exactly if the variable for the policy
writes a flag and the variable for the depth writes a number of 64 bits other than zero, as far as
they are set. What is set takes the place of what was there. A text that is no flag is to blame
whatever the other variable holds; a text that is no number of 64 bits is to blame only after it,
and zero is refused as a depth. To override options a second time changes nothing. -/
theorem override_written {options : Options} (valid : 1 ≤ options.maxDepth)
    (lookup? : String → Option String) :
    let strictIds := lookup? "PARSE_WHERE_STRICT_IDS"
    let maxDepth := lookup? "PARSE_WHERE_MAX_DEPTH"
    let overrides := Overrides.ofEnvironment lookup?
    ((∃ overridden, options.override overrides = .ok overridden) ↔
        (∀ text ∈ strictIds, ∃ flag, WritesFlag text flag) ∧
          ∀ text ∈ maxDepth, ∃ depth, WritesCount text depth ∧ 1 ≤ depth ∧ depth < 2 ^ 64) ∧
      (∀ overridden, options.override overrides = .ok overridden →
        Gives WritesPolicy strictIds options.policy overridden.policy ∧
          Gives WritesCount maxDepth options.maxDepth overridden.maxDepth) ∧
      (∀ text ∈ strictIds, (∀ flag, ¬ WritesFlag text flag) →
        options.override overrides = .error (.variable "PARSE_WHERE_STRICT_IDS" text .flag)) ∧
      ((∀ text ∈ strictIds, ∃ flag, WritesFlag text flag) → ∀ text ∈ maxDepth,
        ((∀ depth, WritesCount text depth → 2 ^ 64 ≤ depth) →
          options.override overrides = .error (.variable "PARSE_WHERE_MAX_DEPTH" text .count)) ∧
        (WritesCount text 0 → options.override overrides = .error .zeroDepth)) ∧
      (options.override overrides >>= fun once => once.override overrides) =
        options.override overrides := by
  intro strictIds maxDepth overrides
  refine ⟨?_, fun overridden h => ?_, fun text set nothing => ?_, fun flags text set => ?_,
    override_override options overrides⟩
  · rw [exists_override_iff valid]
    simp only [WritesDepth, and_assoc, and_comm (a := _ < 2 ^ 64)]
    exact Iff.rfl
  · obtain ⟨policy, depth, -⟩ := override_eq_ok_iff.mp h
    exact ⟨policy, depth.mono fun _ _ writes => writes.1⟩
  · exact override_of_not_writesFlag set nothing
  · have flags : ∀ text ∈ overrides.strictIds, ∃ flag, WritesFlag text flag := flags
    have given : overrides.maxDepth = some text := set
    obtain ⟨policy, gives⟩ := exists_gives_policy_iff.mpr flags
    rw [override_of_gives_policy gives, given]
    refine ⟨fun large => ?_, fun zero => ?_⟩
    · have noDepth : ∀ depth, ¬ WritesDepth text depth := fun depth ⟨writes, lt⟩ =>
        Nat.not_lt.mpr (large depth writes) lt
      rw [readVariable_of_not_writes readDepth_eq_some_iff noDepth, Except.error_bind]
      rfl
    · have given : Gives WritesDepth (some text) options.maxDepth 0 := ⟨zero, by decide⟩
      rw [(readVariable_eq_ok_iff readDepth_eq_some_iff).mpr given, Except.ok_bind]
      rfl

/-- An environment with a flag and a depth. -/
def flagged (flag : String) (depth : Option String) (name : String) : Option String :=
  if name = "PARSE_WHERE_STRICT_IDS" then some flag
  else if name = "PARSE_WHERE_MAX_DEPTH" then depth
  else none

/-- A flag in mixed letters between a wide blank and a line break, and the greatest number of 64
bits with a sign and zeros before. The next number is refused. The other flag makes strict options
lenient, and their depth stays if none is set. -/
theorem override_greatest_depth :
    let environment (depth : String) := flagged "\u2003tRUe\n" (some depth)
    let options : Options := {}
    let strict : Options := ⟨.strict, 7⟩
    1 ≤ options.maxDepth ∧ 1 ≤ strict.maxDepth ∧
      options.override (.ofEnvironment (environment "\t+0018446744073709551615")) =
        .ok ⟨.strict, 2 ^ 64 - 1⟩ ∧
      WritesFlag "\u2003tRUe\n" true ∧ WritesCount "\t+0018446744073709551615" (2 ^ 64 - 1) ∧
      options.override (.ofEnvironment (environment "18446744073709551616")) =
        .error (.variable "PARSE_WHERE_MAX_DEPTH" "18446744073709551616" .count) ∧
      strict.override (.ofEnvironment (flagged " False\r\n" none)) = .ok ⟨.lenient, 7⟩ ∧
      WritesFlag " False\r\n" false := by
  intro environment options strict
  have valid : 1 ≤ options.maxDepth := by decide
  have valid' : 1 ≤ strict.maxDepth := by decide
  have greatest : options.override (.ofEnvironment (environment "\t+0018446744073709551615")) =
      .ok ⟨.strict, 2 ^ 64 - 1⟩ := by decide +kernel
  have next : readCount? "18446744073709551616" = none := by decide +kernel
  have relaxed : strict.override (.ofEnvironment (flagged " False\r\n" none)) =
      .ok ⟨.lenient, 7⟩ := by decide +kernel
  obtain ⟨succeeds, given, -⟩ := override_written valid (environment "\t+0018446744073709551615")
  obtain ⟨-, -, -, blame, -⟩ := override_written valid (environment "18446744073709551616")
  obtain ⟨-, given', -⟩ := override_written valid' (flagged " False\r\n" none)
  obtain ⟨policy, depth⟩ := given _ greatest
  obtain ⟨flags, -⟩ := succeeds.mp ⟨_, greatest⟩
  obtain ⟨policy', -⟩ := given' _ relaxed
  refine ⟨valid, valid', greatest, policy, depth, (blame flags _ rfl).1 fun depth writes => ?_,
    relaxed, policy'⟩
  by_contra fits
  have read := readCount?_eq_some_iff.mpr ⟨writes, Nat.not_le.mp fits⟩
  rw [next] at read
  cases read

end Options

end FilterQuery
