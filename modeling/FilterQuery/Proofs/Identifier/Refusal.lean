import FilterQuery.Proofs.Identifier
import FilterQuery.Proofs.Text.Utf8
import Mathlib.Data.List.TakeWhile

/-!
# Why a string is no relay identifier

A relay identifier is read in three stages, and each refuses strings for a reason of its own. The
string is no base64 text at all; or it is one, of bytes that are not well-formed UTF-8; or the bytes
are a text, which has no colon. The reasons exclude each other, and a string for which there is none
is read (`Codec.relay_decode_outcomes`).
-/

namespace FilterQuery

/-- A text is that of an identifier exactly if it has the delimiter. -/
theorem GlobalId.ofText?_eq_none_iff {delimiter : Char} {s : String} :
    ofText? delimiter s = none ↔ delimiter ∉ s.toList := by
  have dropped : s.toList.dropWhile (· ≠ delimiter) = [] ↔ delimiter ∉ s.toList := by
    rw [List.dropWhile_eq_nil_iff]
    simp only [decide_eq_true_eq]
    exact ⟨fun ne mem => ne delimiter mem rfl, fun free c mem eq => free (eq ▸ mem)⟩
  rw [← dropped, ofText?]
  cases s.toList.dropWhile (· ≠ delimiter) with
  | nil => exact iff_of_true rfl rfl
  | cons c rest => exact iff_of_false (Option.some_ne_none _) (List.cons_ne_nil c rest)

namespace Codec

variable {s : String}

/-! ### Stages -/

theorem relay_decode_of_base64 {fault : Base64.Fault}
    (h : Base64.decode (Utf8.encode s) = .error fault) :
    relay.decode s = .error (.base64 fault) := by
  change (Base64.decode (Utf8.encode s)).mapError IdentifierError.base64 >>= _ = _
  rw [h]
  rfl

theorem relay_decode_of_utf8 {bytes : List UInt8} {fault : Utf8.Fault}
    (hbytes : Base64.decode (Utf8.encode s) = .ok bytes) (h : Utf8.decode bytes = .error fault) :
    relay.decode s = .error (.utf8 fault) := by
  change (Base64.decode (Utf8.encode s)).mapError IdentifierError.base64 >>= _ = _
  rw [hbytes]
  change (Utf8.decode bytes).mapError IdentifierError.utf8 >>= _ = _
  rw [h]
  rfl

theorem relay_decode_of_text {bytes : List UInt8} {text : String}
    (hbytes : Base64.decode (Utf8.encode s) = .ok bytes) (htext : Utf8.decode bytes = .ok text) :
    relay.decode s = match GlobalId.ofText? ':' text with
      | some g => .ok g
      | none => .error (.missingDelimiter text) := by
  change (Base64.decode (Utf8.encode s)).mapError IdentifierError.base64 >>= _ = _
  rw [hbytes]
  change (Utf8.decode bytes).mapError IdentifierError.utf8 >>= _ = _
  rw [htext]
  rfl

/-! ### Reasons -/

/-- **Outcomes.** Each reason to refuse a string is told by what the string is the base64 text of:
of no bytes, of bytes that are not well-formed UTF-8, or of a text without a colon. Any other string
is read. -/
theorem relay_decode_outcomes (s : String) :
    ((∃ fault, relay.decode s = .error (.base64 fault)) ↔
        ∀ bytes, s ≠ .ofList (Base64.encode bytes)) ∧
      ((∃ fault, relay.decode s = .error (.utf8 fault)) ↔
        ∃ bytes, s = .ofList (Base64.encode bytes) ∧ ¬ Utf8.WellFormed bytes) ∧
      (∀ text, relay.decode s = .error (.missingDelimiter text) ↔
        s = .ofList (Base64.encode (Utf8.encode text)) ∧ ':' ∉ text.toList) ∧
      ((∃ g, relay.decode s = .ok g) ↔
        ∃ text, s = .ofList (Base64.encode (Utf8.encode text)) ∧ ':' ∈ text.toList) := by
  rcases hbytes : Base64.decode (Utf8.encode s) with fault | bytes
  · have outcome := relay_decode_of_base64 hbytes
    have noText (bytes : List UInt8) : s ≠ .ofList (Base64.encode bytes) := by
      intro eq
      rw [Base64.decode_encode_eq_ok_iff.mpr eq] at hbytes
      cases hbytes
    simp [outcome, noText]
  have same (other : List UInt8) : s = .ofList (Base64.encode other) ↔ bytes = other := by
    rw [← Base64.decode_encode_eq_ok_iff, hbytes, Except.ok.injEq]
  rcases htext : Utf8.decode bytes with fault | text
  · have outcome := relay_decode_of_utf8 hbytes htext
    have illFormed : ¬ Utf8.WellFormed bytes := Utf8.exists_decode_eq_error_iff.mp ⟨fault, htext⟩
    have noText (text : String) : bytes ≠ Utf8.encode text := by
      intro eq
      rw [Utf8.decode_eq_ok_iff.mpr eq] at htext
      cases htext
    simp [outcome, same, illFormed, noText]
  · have outcome := relay_decode_of_text hbytes htext
    have wellFormed : Utf8.WellFormed bytes := by
      rw [Utf8.decode_eq_ok_iff.mp htext]
      exact Utf8.wellFormed_encode text
    have sameText (other : String) : bytes = Utf8.encode other ↔ text = other := by
      rw [← Utf8.decode_eq_ok_iff, htext, Except.ok.injEq]
    rcases split : GlobalId.ofText? ':' text with _ | g
    · rw [split] at outcome
      have free := GlobalId.ofText?_eq_none_iff.mp split
      simp [outcome, same, sameText, wellFormed, free]
    · rw [split] at outcome
      have colon : ':' ∈ text.toList := by
        rw [(GlobalId.ofText?_eq_some_iff.mp split).2]
        simp [GlobalId.text]
      simp [outcome, same, sameText, wellFormed, colon]

/-- The empty string is the base64 text of the empty text. -/
example : relay.decode "" = .error (.missingDelimiter "") := rfl

end Codec

end FilterQuery
