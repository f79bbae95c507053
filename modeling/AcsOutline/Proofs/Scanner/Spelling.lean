import AcsOutline.Scanner.Lexeme
import AcsOutline.Scanner.Trivia

/-!
# Spellings and texts

The spelling of trivia or of a lexeme is what the source holds; its text is that without the
marks around it.  Only three things have marks: a string has quotes, a line comment has `//`
before it and a block comment stands between `/*` and `*/`.  The closing mark of a string or of
a block comment may be missing, but only where the input ends (`Marked`).

The two readers keep to this: `Trivia.marked_of_read?` for trivia under any mask, and
`Lexeme.marked_read` for lexemes.
-/

namespace AcsOutline

/-- A spelling is a text between two marks, with `rest` after it; at the end of the input the
closing mark may be missing. -/
def Marked (opening closing text spelling rest : List Char) : Prop :=
  spelling = opening ++ text ++ closing ∨ (spelling = opening ++ text ∧ rest = [])

namespace TriviaKind

/-- The mark before the text of trivia. -/
def opening : TriviaKind → List Char
  | lineComment => ['/', '/']
  | blockComment => ['/', '*']
  | newline | whitespace => []

/-- The mark after the text of trivia. -/
def closing : TriviaKind → List Char
  | blockComment => ['*', '/']
  | newline | whitespace | lineComment => []

end TriviaKind

namespace TokenKind

/-- The mark before and after the text of a token. -/
def mark : TokenKind → List Char
  | string => ['"']
  | _ => []

theorem mark_of_ne_string {k : TokenKind} (h : k ≠ string) : k.mark = [] := by
  cases k <;> first | rfl | exact absurd rfl h

end TokenKind

namespace Trivia

/-- A comment without its closing mark runs to the end of the input. -/
theorem commentBody_cases (cs : List Char) :
    (∃ after, cs = commentBody cs ++ '*' :: '/' :: after) ∨ cs = commentBody cs := by
  fun_induction commentBody cs with
  | case1 => exact Or.inr rfl
  | case2 after => exact Or.inl ⟨after, rfl⟩
  | case3 c cs _ ih =>
    rcases ih with ⟨after, h⟩ | h
    · exact Or.inl ⟨after, congrArg (c :: ·) h⟩
    · exact Or.inr (congrArg (c :: ·) h)

/-- What a comment holds does not depend on what stands after its closing mark. -/
theorem commentBody_append {cs after : List Char} (h : cs = commentBody cs ++ '*' :: '/' :: after)
    (after' : List Char) :
    commentBody (commentBody cs ++ '*' :: '/' :: after') = commentBody cs := by
  fun_induction commentBody cs with
  | case1 => simp at h
  | case2 => rfl
  | case3 c cs hne ih =>
    have htail : cs = commentBody cs ++ '*' :: '/' :: after := by simpa using h
    -- a star in the body is not followed by a slash, so it does not end the comment earlier
    have hhead : ∀ r, c = '*' → commentBody cs ++ '*' :: '/' :: after' = '/' :: r → False := by
      intro r hc hr
      cases hb : commentBody cs with
      | nil => simp [hb] at hr
      | cons d ds =>
        rw [hb] at hr htail
        have hd : d = '/' := (List.cons.inj hr).1
        exact hne (ds ++ '*' :: '/' :: after) hc (by rw [htail, hd]; rfl)
    rw [List.cons_append, commentBody.eq_3 c _ hhead, ih htail]

/-- The part of a text that belongs to a block comment, given the text after the opening
mark. -/
theorem marked_comment (cs : List Char) :
    Marked [] ['*', '/'] (commentBody (cs.take ((commentBody cs).length + 2)))
      (cs.take ((commentBody cs).length + 2)) (cs.drop ((commentBody cs).length + 2)) := by
  rcases commentBody_cases cs with ⟨after, h⟩ | h
  · have hcs : cs = (commentBody cs ++ ['*', '/']) ++ after := by simpa using h
    have htake : cs.take ((commentBody cs).length + 2) = commentBody cs ++ ['*', '/'] :=
      (congrArg (List.take _) hcs).trans (List.take_left' (by simp))
    left
    rw [htake, commentBody_append h]
    rfl
  · -- without a closing mark the comment takes all there is
    have hlen : cs.length ≤ (commentBody cs).length + 2 := by
      rw [← h]
      omega
    right
    rw [List.take_of_length_le hlen, List.drop_eq_nil_of_le hlen]
    exact ⟨h, rfl⟩

/-- **Trivia is spelled as its text between its marks**, under every mask. -/
theorem marked_of_read? {mask : SkipMask} {cs : List Char} {kind : TriviaKind}
    {spelling rest : List Char} (h : read? mask cs = some (kind, spelling, rest)) :
    Marked kind.opening kind.closing (textOf kind spelling) spelling rest := by
  cases cs with
  | nil => cases h
  | cons c cs =>
    obtain ⟨⟨k, n⟩, hextent, h⟩ := Option.map_eq_some_iff.1 h
    obtain ⟨rfl, rfl, rfl⟩ := h
    unfold extent at hextent
    split at hextent
    · cases hextent
      exact Or.inl (by simp [TriviaKind.opening, TriviaKind.closing, textOf])
    split at hextent
    · cases hextent
      exact Or.inl (by simp [TriviaKind.opening, TriviaKind.closing, textOf])
    split at hextent
    · cases hextent
      exact Or.inl (by simp [TriviaKind.opening, TriviaKind.closing, textOf])
    split at hextent
    next hmark =>
      cases hextent
      obtain ⟨-, rfl, hhead⟩ := hmark
      obtain ⟨tail, rfl⟩ := List.head?_eq_some_iff.1 hhead
      exact Or.inl (by simp [TriviaKind.opening, TriviaKind.closing, textOf])
    split at hextent
    next hmark =>
      cases hextent
      obtain ⟨-, rfl, hhead⟩ := hmark
      obtain ⟨tail, rfl⟩ := List.head?_eq_some_iff.1 hhead
      rcases marked_comment tail with hbody | ⟨hbody, hrest⟩
      · exact Or.inl (congrArg (['/', '*'] ++ ·) hbody)
      · exact Or.inr ⟨congrArg (['/', '*'] ++ ·) hbody, hrest⟩
    · cases hextent

end Trivia

namespace Lexeme

/-- No punctuation is read as a string. -/
theorem kind_ne_string_of_mem {c : Char} {kind : TokenKind} (h : (c, kind) ∈ punctuation) :
    kind ≠ .string := by
  have hall : ∀ p ∈ punctuation, p.2 ≠ .string := by decide
  exact hall (c, kind) h

/-- Only a quote begins a string. -/
theorem extent_eq_string {c : Char} {cs : List Char} (h : (extent c cs).1 = .string) :
    c = '"' ∧ (extent c cs).2 = (cs.takeWhile (· ≠ '"')).length + 1 := by
  have hshape := shape_extent c cs
  generalize extent c cs = e at hshape h ⊢
  cases hshape with
  | punctuation hlookup => exact absurd h (kind_ne_string_of_mem (mem_of_lookup hlookup))
  | quote hc => exact ⟨hc, rfl⟩
  | word => exact absurd h (TokenKind.ofWord_ne _ rfl)
  | _ => cases h

/-- A string is the text up to the next quote and that quote, unless the input ends before
one. -/
theorem marked_quoted (cs : List Char) :
    Marked [] ['"'] ((cs.take ((cs.takeWhile (· ≠ '"')).length + 1)).takeWhile (· ≠ '"'))
      (cs.take ((cs.takeWhile (· ≠ '"')).length + 1))
      (cs.drop ((cs.takeWhile (· ≠ '"')).length + 1)) := by
  induction cs with
  | nil => exact Or.inr ⟨rfl, rfl⟩
  | cons c cs ih =>
    by_cases hc : c = '"'
    · subst hc
      exact Or.inl rfl
    · rcases ih with ih | ⟨ih, hrest⟩
      · exact Or.inl (by simpa [hc] using ih)
      · exact Or.inr ⟨by simpa [hc] using ih, by simpa [hc] using hrest⟩

/-- **A lexeme is spelled as its text between its marks.** -/
theorem marked_read (cs : List Char) :
    Marked (read cs).1.kind.mark (read cs).1.kind.mark (read cs).1.text.toList
      (read cs).1.spelling (read cs).2 := by
  by_cases hkind : (read cs).1.kind = .string
  · cases cs with
    | nil => cases hkind
    | cons c cs =>
      by_cases hc : c = '\x00'
      · simp [read, hc] at hkind
      · have hread := read_cons hc cs
        rw [hread] at hkind
        obtain ⟨rfl, hn⟩ := extent_eq_string hkind
        have hstring : (extent '"' cs).1 = .string := hkind
        rw [hread, hstring, hn]
        rcases marked_quoted cs with hbody | ⟨hbody, hrest⟩
        · left
          simpa [text, TokenKind.mark] using hbody
        · right
          exact ⟨by simpa [text, TokenKind.mark] using hbody, hrest⟩
  · rw [TokenKind.mark_of_ne_string hkind]
    exact Or.inl (by simp [text, hkind])

end Lexeme

end AcsOutline
