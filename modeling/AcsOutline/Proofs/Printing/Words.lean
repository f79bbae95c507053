import AcsOutline.Proofs.Printing.NormalForm
import AcsOutline.Proofs.Scanner.Lines
import AcsOutline.Proofs.Scanner.Reread

/-!
# Words on a page

A word that stands on a printed line is read as one token: the space behind it, or the mark
before or behind it, keeps it apart from the next word (`Printing.Spells`).  What has been written
in normal form spells what it says: names are symbols, quoted texts are closed strings, and marks
and keywords are themselves.

`Scanner.Faces` says what a scanner has before it, up to blanks that it is going to skip, and
`Scanner.Faces.next` that the next token is the word that stands there.
-/

namespace AcsOutline

/-- What the mask that skips everything leaves is left by every mask. -/
theorem Trivia.read?_of_all {cs : List Char} (h : read? .all cs = none) (mask : SkipMask) :
    read? mask cs = none := by
  cases cs with
  | nil => rfl
  | cons c cs =>
    simp only [read?, Option.map_eq_none_iff, extent, SkipMask.all, true_and] at h ⊢
    split at h
    · cases h
    next hfeed =>
      rw [if_neg fun hc => hfeed hc.2]
      split at h
      · cases h
      next hreturn =>
        rw [if_neg fun hc => hreturn hc.2]
        split at h
        · cases h
        next hblank =>
          rw [if_neg fun hc => hblank hc.2]
          split at h
          · cases h
          next hline =>
            rw [if_neg fun hc => hline hc.2]
            split at h
            · cases h
            next hblock => rw [if_neg fun hc => hblock hc.2]

namespace Printing

/-! ## What words spell -/

/-- What follows a word on a page does not belong to it. -/
def Stops (w : String) (r : List Char) : Prop :=
  w ∈ tightAfter ∨ Lexeme.Delimited r

/-- A word is read as a token with a kind and a text, wherever it stands on a page. -/
structure Spells (w : String) (kind : TokenKind) (text : String) : Prop where
  no_trivia : ∀ r, Stops w r → Trivia.read? .all (w.toList ++ r) = none
  read_eq : ∀ r, Stops w r → Lexeme.read (w.toList ++ r) = (⟨kind, w.toList⟩, r)
  text_eq : (Lexeme.mk kind w.toList).text = text

theorem spells_mark {c : Char} {kind : TokenKind} (h : Lexeme.punctuation.lookup c = some kind) :
    Spells (String.ofList [c]) kind (String.ofList [c]) := by
  have hmem := Lexeme.mem_of_lookup h
  have hnul : ∀ p ∈ Lexeme.punctuation, p.1 ≠ '\x00' := by decide
  have hblank : ∀ p ∈ Lexeme.punctuation, ¬Text.isBlank p.1 = true := by decide
  have hslash : ∀ p ∈ Lexeme.punctuation, p.1 ≠ '/' := by decide
  refine ⟨fun r _ => ?_, fun r _ => ?_, ?_⟩
  · rw [String.toList_ofList]
    exact Trivia.read?_eq_none (hblank (c, kind) hmem) fun hc => absurd hc (hslash (c, kind) hmem)
  · rw [String.toList_ofList, List.singleton_append, Lexeme.read_cons (hnul (c, kind) hmem),
      Lexeme.extent_of_lookup h]
    rfl
  · rw [String.toList_ofList, Lexeme.text, if_neg (Lexeme.kind_ne_string_of_mem hmem)]

theorem exists_mark_of_mem {w : String} (h : w ∈ tightAfter) :
    ∃ c kind, w = String.ofList [c] ∧ Lexeme.punctuation.lookup c = some kind := by
  simp only [tightAfter, List.mem_cons, List.not_mem_nil, or_false] at h
  rcases h with rfl | rfl | rfl | rfl
  · exact ⟨'(', .lparen, rfl, rfl⟩
  · exact ⟨'[', .lbracket, rfl, rfl⟩
  · exact ⟨'#', .hash, rfl, rfl⟩
  · exact ⟨':', .colon, rfl, rfl⟩

/-- A word that is legible where a delimiter follows spells its lexeme. -/
theorem Spells.of_legible {w : String} {kind : TokenKind}
    (h : (Lexeme.mk kind w.toList).Legible) : Spells w kind (Lexeme.mk kind w.toList).text := by
  by_cases hw : w ∈ tightAfter
  · -- a mark, which is read as itself whatever follows
    obtain ⟨c, k, rfl, hc⟩ := exists_mark_of_mem hw
    have hmark := spells_mark hc
    have hkind : kind = k := by
      have hread := h.read_eq [] Lexeme.delimited_nil
      rw [hmark.read_eq [] (Or.inl hw)] at hread
      exact (congrArg (·.1.kind) hread).symm
    subst hkind
    exact ⟨hmark.no_trivia, hmark.read_eq, rfl⟩
  · exact ⟨fun r hr => h.no_trivia r (hr.resolve_left hw),
      fun r hr => h.read_eq r (hr.resolve_left hw), rfl⟩

section Marks

theorem spells_hash : Spells "#" .hash "#" := spells_mark rfl
theorem spells_comma : Spells "," .comma "," := spells_mark rfl
theorem spells_colon : Spells ":" .colon ":" := spells_mark rfl
theorem spells_semicolon : Spells ";" .semicolon ";" := spells_mark rfl
theorem spells_equals : Spells "=" .equals "=" := spells_mark rfl
theorem spells_lparen : Spells "(" .lparen "(" := spells_mark rfl
theorem spells_rparen : Spells ")" .rparen ")" := spells_mark rfl
theorem spells_lbrace : Spells "\x7b" .lbrace "\x7b" := spells_mark rfl
theorem spells_rbrace : Spells "\x7d" .rbrace "\x7d" := spells_mark rfl
theorem spells_lbracket : Spells "[" .lbracket "[" := spells_mark rfl
theorem spells_rbracket : Spells "]" .rbracket "]" := spells_mark rfl

end Marks

theorem IsWord.legible {s : String} (h : IsWord s) :
    (Lexeme.mk (.ofWord s) s.toList).Legible := by
  obtain ⟨cs, rfl⟩ : ∃ cs, s = String.ofList cs := ⟨s.toList, String.ofList_toList.symm⟩
  have hall := h.all
  have hhead := h.head
  rw [String.toList_ofList] at hall hhead ⊢
  cases cs with
  | nil => exact absurd rfl h.nonempty
  | cons c cs =>
    exact Lexeme.legible_word (hall c List.mem_cons_self) (by simp [hhead c rfl])
      fun d hd => hall d (List.mem_cons_of_mem c hd)

theorem text_of_ne_string {w : String} {kind : TokenKind} (h : kind ≠ .string) :
    (Lexeme.mk kind w.toList).text = w := by
  rw [Lexeme.text, if_neg h, String.ofList_toList]

/-- A word spells itself. -/
theorem IsWord.spells {s : String} (h : IsWord s) : Spells s (.ofWord s) s := by
  have hspells := Spells.of_legible h.legible
  rwa [text_of_ne_string (TokenKind.ofWord_ne s rfl)] at hspells

theorem IsName.spells {s : String} (h : IsName s) : Spells s .symbol s := by
  have hspells := h.toIsWord.spells
  rwa [TokenKind.ofWord, h.plain] at hspells

theorem spells_keyword (k : Keyword) : Spells k.spelling (.keyword k) k.spelling := by
  have hword : IsWord k.spelling := by
    cases k <;> exact .of_check (by decide)
  have hkind : TokenKind.ofWord k.spelling = .keyword k := by
    cases k <;> decide
  have hspells := hword.spells
  rwa [hkind] at hspells

/-- What is read as a number begins with a digit or a sign, and so with no trivia. -/
theorem read?_eq_none_of_number {c : Char} {cs : List Char}
    (hkind : (Lexeme.extent c cs).1 = .number) : Trivia.read? .all (c :: cs) = none := by
  have hshape := Lexeme.shape_extent c cs
  generalize Lexeme.extent c cs = e at hshape hkind
  cases hshape with
  | punctuation hlookup =>
    have hnone : ∀ p ∈ Lexeme.punctuation, p.2 ≠ .number := by decide
    exact absurd hkind (hnone _ (Lexeme.mem_of_lookup hlookup))
  | digit hdigit =>
    have hword := Lexeme.isWordChar_of_isDigit hdigit
    exact Trivia.read?_eq_none (by simp [Lexeme.not_isBlank_of_isWordChar hword])
      fun hc => absurd hc (Lexeme.isWordChar_ne hword (by decide))
  | sign hc =>
    subst hc
    exact Trivia.read?_eq_none (by decide) fun hc => absurd hc (by decide)
  | word => exact absurd hkind (TokenKind.ofWord_ne _ rfl)
  | _ => cases hkind

theorem IsNumber.spells {s : String} (h : IsNumber s) : Spells s .number s := by
  have hlegible : (Lexeme.mk .number s.toList).Legible := by
    unfold IsNumber at h
    cases hs : s.toList with
    | nil =>
      rw [hs] at h
      exact absurd (congrArg (·.1.kind) h) (by decide)
    | cons c cs =>
      rw [hs] at h
      have hnul : c ≠ '\x00' := by
        rintro rfl
        exact nomatch congrArg (·.1.kind) h
      have hkind : (Lexeme.extent c cs).1 = .number := by
        rw [Lexeme.read_cons hnul] at h
        exact congrArg (·.1.kind) h
      have hread := Lexeme.legible_read rfl hnul (read?_eq_none_of_number hkind)
        (by rw [h]; exact TokenKind.noConfusion)
      rwa [h, Lexeme.written_of_ne_string TokenKind.noConfusion] at hread
  have hspells := Spells.of_legible hlegible
  rwa [text_of_ne_string (by decide)] at hspells

theorem IsQuotable.spells {s : String} (h : IsQuotable s) : Spells (quote s) .string s := by
  have hbody : ∀ c ∈ s.toList, c ≠ '"' := by
    rintro c hc rfl
    exact h hc
  have hquote : (quote s).toList = '"' :: (s.toList ++ ['"']) := by
    rw [quote, String.toList_append, String.toList_append]
    rfl
  have hspells := Spells.of_legible (w := quote s) (hquote ▸ Lexeme.legible_string hbody)
  have htext : (Lexeme.mk .string (quote s).toList).text = s := by
    have htake : (s.toList ++ ['"']).takeWhile (· ≠ '"') = s.toList :=
      Text.takeWhile_append_of_head (fun c hc => decide_eq_true (hbody c hc)) (by simp)
    rw [Lexeme.text, if_pos rfl, hquote, List.drop_one, List.tail_cons, htake, String.ofList_toList]
  rwa [htext] at hspells

/-- A literal spells a token that is written as the literal, and that no form gives a meaning of
its own. -/
theorem IsLiteral.spells {s : String} (h : IsLiteral s) :
    ∃ kind text, Spells s kind text ∧ kind.literal text = s ∧
      kind ≠ .comma ∧ Scanner.braceStep kind = 0 := by
  have hplain : ∀ {kind : TokenKind}, kind ≠ .string → kind.literal s = s :=
    fun h => if_neg h
  cases h with
  | word h =>
    refine ⟨_, _, h.spells, hplain (TokenKind.ofWord_ne s rfl), TokenKind.ofWord_ne s rfl, ?_⟩
    unfold TokenKind.ofWord
    split <;> rfl
  | number h => exact ⟨_, _, h.spells, hplain (by decide), by decide, rfl⟩
  | quoted h => exact ⟨_, _, h.spells, if_pos rfl, by decide, rfl⟩

/-- No word is read as the end of input, which leaves everything to read. -/
theorem Spells.ne_eof {w text : String} {kind : TokenKind} (h : Spells w kind text) :
    kind ≠ .eof := by
  rintro rfl
  have hread := h.read_eq [' '] (Or.inr (Lexeme.delimited_space []))
  have hrest := Lexeme.read_rest_of_eof (congrArg (·.1.kind) hread)
  rw [hread] at hrest
  have hrest : [] ++ [' '] = w.toList ++ [' '] := hrest
  rw [← List.append_cancel_right hrest] at hread
  exact absurd (congrArg (·.1.kind) hread) (by decide)

/-- A word spells one thing only. -/
theorem Spells.unique {w : String} {kind kind' : TokenKind} {text text' : String}
    (h : Spells w kind text) (h' : Spells w kind' text') : kind = kind' ∧ text = text' := by
  have hread := h.read_eq [' '] (Or.inr (Lexeme.delimited_space []))
  rw [h'.read_eq [' '] (Or.inr (Lexeme.delimited_space []))] at hread
  have hkind : kind' = kind := congrArg (·.1.kind) hread
  subst hkind
  exact ⟨rfl, h.text_eq.symm.trans h'.text_eq⟩

/-- A string that a word spells is closed. -/
theorem Spells.closed {w text : String} (h : Spells w .string text) :
    text.utf8ByteSize + 2 = Text.byteLength w.toList := by
  have hmarked := Lexeme.marked_read (w.toList ++ [' '])
  rw [h.read_eq [' '] (Or.inr (Lexeme.delimited_space [])), h.text_eq] at hmarked
  rcases hmarked with hw | ⟨-, hrest⟩
  · have hlength := congrArg Text.byteLength hw
    dsimp only at hlength
    rw [hlength, ← String.ofList_toList (s := text), Text.utf8ByteSize_ofList, String.toList_ofList,
      Text.byteLength_append, Text.byteLength_append]
    show _ = 1 + 0 + _ + (1 + 0)
    omega
  · cases hrest

end Printing

end AcsOutline
