import AcsOutline.Proofs.Scanner.Masks
import AcsOutline.Proofs.Scanner.Reread

/-!
# Strings that are cut off

A string whose closing quote is missing runs to the end of the input, so it is the last token of a
source.  As long as it is to be read, a scanner *precedes* it (`Scanner.Precedes`); after one more
token the scanner still precedes it, or stands at it with nothing left (`Scanner.UpTo`).  Behind it
there is only the end of input.
-/

namespace AcsOutline

namespace Token

/-- The end of input is not a string. -/
theorem kind_of_unclosed {t : Token} (h : t.isUnclosedString = true) : t.kind = .string := by
  rw [isUnclosedString, Bool.and_eq_true, beq_iff_eq] at h
  exact h.1

theorem isSolid_of_unclosed {t : Token} (h : t.isUnclosedString = true) : t.isSolid = true := by
  rw [isSolid, kind_of_unclosed h]
  rfl

end Token

namespace Scanner

variable {s t : Scanner} {u : Token}

theorem length_span_next (s : Scanner) : s.next.token.span.length =
    Text.byteLength (Lexeme.read s.skipTrivia.rest).1.spelling :=
  (congrArg (· - _) (Nat.max_eq_right (Nat.le_add_right _ _))).trans (Nat.add_sub_cancel_left _ _)

theorem utf8ByteSize_text_next (s : Scanner) : s.next.token.text.utf8ByteSize =
    Text.byteLength (Lexeme.read s.skipTrivia.rest).1.text.toList := by
  show (Lexeme.read s.skipTrivia.rest).1.text.utf8ByteSize = _
  rw [← Text.utf8ByteSize_ofList, String.ofList_toList]

/-- Nothing follows a string that is cut off. -/
theorem rest_next_of_unclosed (h : s.next.token.isUnclosedString = true) : s.next.rest = [] := by
  have hkind : (Lexeme.read s.skipTrivia.rest).1.kind = .string := Token.kind_of_unclosed h
  rcases Lexeme.marked_read s.skipTrivia.rest with hclosed | ⟨-, hrest⟩
  · -- a string with both quotes is as long as its text and they are
    rw [hkind] at hclosed
    have hquotes : s.next.token.span.length = s.next.token.text.utf8ByteSize + 2 := by
      have hquote : Text.byteLength TokenKind.string.mark = 1 := by decide
      rw [length_span_next, utf8ByteSize_text_next, hclosed, Text.byteLength_append,
        Text.byteLength_append, hquote]
      omega
    rw [Token.isUnclosedString, Bool.and_eq_true, decide_eq_true_eq, hquotes] at h
    exact absurd h.2 (Nat.lt_irrefl _)
  · exact hrest

/-- A string that is not cut off is as its token is written. -/
theorem written_of_closed (h : s.next.token.isUnclosedString = false) :
    (Lexeme.read s.skipTrivia.rest).1.written = (Lexeme.read s.skipTrivia.rest).1 := by
  by_cases hstring : (Lexeme.read s.skipTrivia.rest).1.kind = .string
  · rcases Lexeme.marked_read s.skipTrivia.rest with hspelling | ⟨hspelling, -⟩ <;>
      rw [hstring] at hspelling
    · have hliteral : (TokenKind.string.literal (Lexeme.read s.skipTrivia.rest).1.text).toList =
          (Lexeme.read s.skipTrivia.rest).1.spelling := by
        rw [hspelling, TokenKind.literal, if_pos rfl, String.toList_append, String.toList_append]
        rfl
      rw [Lexeme.written, hstring, hliteral, ← hstring]
    · -- without the second quote there would be no room for two
      have hquote : Text.byteLength TokenKind.string.mark = 1 := by decide
      have hkind : s.next.token.kind = .string := hstring
      rw [Token.isUnclosedString, hkind, length_span_next, utf8ByteSize_text_next, hspelling,
        Text.byteLength_append, hquote] at h
      simp at h
      omega
  · exact Lexeme.written_of_ne_string hstring

/-- A token is still to be read. -/
def Precedes (s : Scanner) (u : Token) : Prop :=
  u ∈ s.readAll.1

/-- A token is still to be read, or it is the current one and nothing follows it. -/
def UpTo (s : Scanner) (u : Token) : Prop :=
  s.Precedes u ∨ (s.token = u ∧ s.rest = [])

/-- If a token has been read, there is nothing behind it but the end of input, where the scanner
stands. -/
def MayPass (s : Scanner) (u : Token) : Prop :=
  s.UpTo u ∨ s.token.kind = .eof

theorem Precedes.upTo (h : s.Precedes u) : s.UpTo u :=
  Or.inl h

theorem UpTo.mayPass (h : s.UpTo u) : s.MayPass u :=
  Or.inl h

/-- Where the current token is no string, the string is still to be read. -/
theorem UpTo.precedes_of_ne (h : s.UpTo u) (hu : u.isUnclosedString = true)
    (hs : s.token.kind ≠ .string) : s.Precedes u := by
  rcases h with h | ⟨htoken, -⟩
  · exact h
  · exact absurd (Token.kind_of_unclosed (htoken ▸ hu)) hs

theorem UpTo.precedes (h : s.UpTo u) (hu : u.isUnclosedString = true) {k : TokenKind}
    (hk : s.token.kind = k) (hne : k ≠ .string) : s.Precedes u :=
  h.precedes_of_ne hu (hk ▸ hne)

theorem UpTo.precedes_of_keyword (h : s.UpTo u) (hu : u.isUnclosedString = true) {word : Keyword}
    (hk : s.token.kind = .keyword word) : s.Precedes u :=
  h.precedes_of_ne hu fun hstring => by
    rw [hk] at hstring
    cases hstring

theorem MayPass.precedes (h : s.MayPass u) (hu : u.isUnclosedString = true) {k : TokenKind}
    (hk : s.token.kind = k) (hne : k ≠ .string) (heof : k ≠ .eof) : s.Precedes u :=
  (h.resolve_right fun h => heof (hk.symm.trans h)).precedes hu hk hne

variable (hu : u.isUnclosedString = true)

include hu

/-- The end of input does not come before the string. -/
theorem Precedes.next_ne_eof (h : s.Precedes u) : s.next.token.kind ≠ .eof := by
  intro heof
  rw [Precedes, readAll_eq, if_pos heof] at h
  rw [← List.mem_singleton.1 h, Token.kind_of_unclosed hu] at heof
  cases heof

/-- **The next token.**  It is the string, or the string is still to be read. -/
theorem Precedes.next (h : s.Precedes u) : s.next.UpTo u := by
  have hne := h.next_ne_eof hu
  rw [Precedes, readAll_eq, if_neg hne] at h
  rcases List.mem_cons.1 h with rfl | h
  · exact Or.inr ⟨rfl, rest_next_of_unclosed hu⟩
  · exact Or.inl h

theorem UpTo.next (h : s.UpTo u) : s.next.MayPass u := by
  rcases h with h | ⟨-, hrest⟩
  · exact Or.inl (h.next hu)
  · exact Or.inr (kind_next_of_rest_nil hrest)

/-- It makes no difference to a string whether line breaks are tokens. -/
theorem Precedes.withMask (h : s.Precedes u) {mask : SkipMask}
    (hline : mask.lineComments = s.mask.lineComments)
    (hblock : mask.blockComments = s.mask.blockComments) : (s.withMask mask).Precedes u := by
  have hsame : (s.withMask mask).withMask mask.spaced = s.withMask s.mask.spaced := by
    rw [SkipMask.spaced_eq_of_comments_eq hline hblock]
    rfl
  -- under both masks the tokens that are not blank are the same, and the string is one of them
  have hall := (abreast_spaced s).readAll.1
  have hall' : (s.withMask mask).readAll.1.filter Token.isSolid =
      ((s.withMask mask).withMask mask.spaced).readAll.1.filter Token.isSolid :=
    (abreast_spaced (s.withMask mask)).readAll.1
  rw [hsame, ← hall] at hall'
  have hmem : u ∈ s.readAll.1.filter Token.isSolid :=
    List.mem_filter.2 ⟨h, Token.isSolid_of_unclosed hu⟩
  rw [← hall'] at hmem
  exact (List.mem_filter.1 hmem).1

end Scanner

end AcsOutline
