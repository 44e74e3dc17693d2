import FilterQuery.Text.Base64
import FilterQuery.Text.Utf8

/-!
# Global identifiers

A `GlobalId` names an object by its class and its local id. Clients see it only as an encoded
string, and a `Codec` passes between the two forms. Two codecs are given: `Codec.relay`, the
base64 text of `type:id`, and `Codec.slash`, the plain text `type/id`.

`GlobalId.ofText?` splits at the first delimiter, so a local id may contain it and a type may
not (`GlobalId.ofText?_eq_some_iff`).
-/

namespace FilterQuery

/-- **Global identifiers.** The class of an object and its id within the class. -/
structure GlobalId where
  /-- The name of the class. -/
  type : String
  /-- The id within the class. -/
  id : String
deriving DecidableEq, Repr

/-- **Decoding errors.** Why a string is no encoded identifier. -/
inductive IdentifierError
  /-- The string is no base64 text. -/
  | base64 (fault : Base64.Fault)
  /-- The bytes are no UTF-8 text. -/
  | utf8 (fault : Utf8.Fault)
  /-- The text has no delimiter. -/
  | missingDelimiter (text : String)
deriving DecidableEq, Repr

/-- The error in words. -/
def IdentifierError.message : IdentifierError → String
  | .base64 fault => s!"Identifier is not valid base64: {fault.message}"
  | .utf8 fault => s!"Identifier does not decode to UTF-8 text: {fault.message}"
  | .missingDelimiter text => s!"Decoded identifier '{text}' has no type delimiter"

/-- **Codecs.** The encoded form of identifiers. -/
structure Codec where
  /-- The encoded form of an identifier. -/
  encode : GlobalId → String
  /-- The identifier of an encoded form. -/
  decode : String → Except IdentifierError GlobalId

namespace GlobalId

/-- The type and the id with a delimiter between them. -/
def text (delimiter : Char) (g : GlobalId) : String := g.type ++ .singleton delimiter ++ g.id

/-- The identifier as people read it. -/
def display (g : GlobalId) : String := g.text ':'

/-- The local id, if the identifier belongs to the class. -/
def localId? (g : GlobalId) (cls : String) : Option String :=
  if g.type = cls then some g.id else none

/-- The identifier whose text this is: the type ends before the first delimiter. -/
def ofText? (delimiter : Char) (s : String) : Option GlobalId :=
  match s.toList.dropWhile (· ≠ delimiter) with
  | [] => none
  | _ :: id => some ⟨.ofList (s.toList.takeWhile (· ≠ delimiter)), .ofList id⟩

/-- A text is read as an identifier exactly if it is the text of the identifier and the type is
free of the delimiter. -/
theorem ofText?_eq_some_iff {delimiter : Char} {s : String} {g : GlobalId} :
    ofText? delimiter s = some g ↔ delimiter ∉ g.type.toList ∧ s = g.text delimiter := by
  rw [ofText?]
  constructor
  · intro h
    split at h
    · cases h
    · next c id rest =>
      have hc : c = delimiter := by
        have := List.head?_dropWhile_not (· ≠ delimiter) s.toList
        rw [rest] at this
        simpa using this
      cases h
      subst hc
      constructor
      · simp only [String.toList_ofList]
        intro mem
        simpa using List.all_eq_true.mp List.all_takeWhile _ mem
      · apply String.toList_injective
        simp only [text, String.toList_append, String.toList_ofList, String.toList_singleton]
        rw [List.append_assoc, List.singleton_append, ← rest, List.takeWhile_append_dropWhile]
  · rintro ⟨free, rfl⟩
    have all : ∀ c ∈ g.type.toList, decide (c ≠ delimiter) = true := by
      intro c mem
      simpa using fun eq : c = delimiter => free (eq ▸ mem)
    have split : (g.text delimiter).toList = g.type.toList ++ delimiter :: g.id.toList := by
      simp [text]
    rw [split, List.dropWhile_append_of_pos all, List.takeWhile_append_of_pos all]
    simp

end GlobalId

namespace Codec

/-- **Relay identifiers.** The base64 text of the UTF-8 bytes of `type:id`. -/
def relay : Codec where
  encode g := .ofList (Base64.encode (Utf8.encode g.display))
  decode s := do
    let bytes ← (Base64.decode (Utf8.encode s)).mapError .base64
    let text ← (Utf8.decode bytes).mapError .utf8
    match GlobalId.ofText? ':' text with
    | some g => .ok g
    | none => .error (.missingDelimiter text)

/-- **Slash identifiers.** The plain text `type/id`. -/
def slash : Codec where
  encode g := g.text '/'
  decode s := match GlobalId.ofText? '/' s with
    | some g => .ok g
    | none => .error (.missingDelimiter s)

end Codec

end FilterQuery
