import AcsOutline.Grammar.Basic
import AcsOutline.Proofs.Grammar.Heads
import AcsOutline.Proofs.Printing.Readings

/-!
# Parts of printed declarations

Access modifiers, names, sizes and parameters are read from their words.  A lone `void` between parentheses stands
for no parameters, so a list of parameters is read as one only where it is not just that.
-/

namespace AcsOutline

open Printing

/-! ## Lower case -/

namespace Text

theorem lowerFrom_of_isWordChar (before : List Char) {cs : List Char}
    (h : ∀ c ∈ cs, Lexeme.isWordChar c = true) : lowerFrom before cs = cs.map Char.toLower := by
  induction cs generalizing before with
  | nil => rfl
  | cons c cs ih =>
    have hc := h c List.mem_cons_self
    have hsigma : c ≠ 'Σ' := Lexeme.isWordChar_ne hc (by decide)
    have hascii : c.toNat < 0x80 := by
      have := (Lexeme.toNat_of_isWordChar hc).2
      omega
    rw [lowerFrom, if_neg hsigma, lowerChar, if_pos hascii,
      ih _ fun d hd => h d (List.mem_cons_of_mem c hd)]
    rfl

/-- A type is the same word as a word in lower case only if it is that word. -/
theorem eq_of_sameWord {s word : String} (hs : IsType s) (hword : word.toList.map Char.toLower = word.toList)
    (h : sameWord s word = true) : s = word := by
  have hlower : s.toList.map Char.toLower = s.toList := by
    have htext := congrArg String.toList hs.lower
    rwa [lowercase, String.toList_ofList, lowerFrom_of_isWordChar [] hs.all] at htext
  rw [sameWord, beq_iff_eq, hlower, hword] at h
  exact String.toList_inj.1 h

end Text

theorem Token.Shows.isWord_eq_false {t : Token} {s word : String} (h : t.Shows .symbol s)
    (hs : IsType s) (hword : word.toList.map Char.toLower = word.toList) (hne : s ≠ word) :
    t.isWord word = false := by
  rw [Token.isWord, h.text_eq, h.kind_eq]
  cases hsame : Text.sameWord s word with
  | false => rfl
  | true => exact absurd (Text.eq_of_sameWord hs hword hsame) hne

theorem Token.Shows.isWord {t : Token} {word : String} (h : t.Shows .symbol word) :
    t.isWord word = true := by
  rw [Token.isWord, h.text_eq, h.kind_eq, Text.sameWord_refl]
  rfl

theorem Token.Shows.isWord_of_ne {t : Token} {kind : TokenKind} {text word : String}
    (h : t.Shows kind text) (hne : kind ≠ .symbol) : t.isWord word = false := by
  rw [Token.isWord, h.kind_eq, beq_eq_false_iff_ne.2 hne, Bool.false_and]

theorem Token.Shows.literal_eq {t : Token} {kind : TokenKind} {text : String}
    (h : t.Shows kind text) : t.literal = kind.literal text := by
  rw [Token.literal, h.kind_eq, h.text_eq]

theorem Printing.IsSize.spells {s : String} (h : IsSize s) :
    ∃ kind, Spells s kind s ∧ (kind = .symbol ∨ kind = .number) := by
  rcases h with h | h
  · exact ⟨_, h.spells, Or.inl rfl⟩
  · exact ⟨_, h.spells, Or.inr rfl⟩

/-! ## Access modifiers -/

/-- Behind the access modifier, if there is one, a scanner is at the word that tells the
declaration. -/
theorem Scanner.At.unmodified {s : Scanner} {kind : TokenKind} {text u w : String}
    {us ws : List String} {b : List Char} {rs : List String} {isPrivate : Bool}
    (h : s.At ⟨u, us, b, rs⟩) (hwords : flag "private" isPrivate ++ w :: ws = u :: us)
    (hw : Spells w kind text) (hne : kind ≠ .keyword .privateWord) :
    s.isPrivate = isPrivate ∧ s.unmodified.At ⟨w, ws, b, rs⟩ := by
  cases isPrivate with
  | false =>
    obtain ⟨rfl, rfl⟩ := List.cons.inj hwords
    have hkind := (h.shows hw).kind_ne hne
    refine ⟨?_, ?_⟩
    · rw [isPrivate, beq_eq_false_iff_ne]
      exact hkind
    · rw [unmodified_of_ne hkind]
      exact h
  | true =>
    obtain ⟨rfl, rfl⟩ := List.cons.inj hwords
    have hkind := (h.shows (spells_keyword .privateWord)).kind_eq
    refine ⟨?_, ?_⟩
    · rw [isPrivate, hkind]
      rfl
    · rw [unmodified_of_eq hkind]
      exact h.next hw

namespace Grammar

open Reading

variable {α : Type} {kind : TokenKind} {text u v w : String} {ws : List String} {b : List Char}
  {rs : List String} {t : Token}

theorem typeText_eq {type : String} (htype : IsType type) (ht : t.Shows .symbol type) :
    typeText t = type := by
  rw [typeText, ht.text_eq, htype.lower]

/-! ## Names and sizes -/

theorem gives_takeName {name : Option String} (hname : ∀ n ∈ name, IsName n)
    (hw : Spells w kind text) (hsymbol : kind ≠ .symbol) :
    (next >>= fun _ => takeName).Gives ⟨v, name.toList ++ w :: ws, b, rs⟩ name ⟨w, ws, b, rs⟩ := by
  cases name with
  | none =>
    refine (finds_next hw).bind fun _ _ => (finds_current hw).bind fun t ht => ?_
    rw [if_neg (ht.kind_ne hsymbol)]
    exact gives_pure _ _
  | some n =>
    have hn := (hname n rfl).spells
    refine (finds_next hn).bind fun _ _ => (finds_current hn).bind fun t ht => ?_
    rw [if_pos ht.kind_eq, ht.text_eq]
    exact (finds_next hw).bind fun _ _ => gives_pure _ _

theorem gives_bracketSize {size : Option String} (hsize : ∀ s ∈ size, IsSize s) :
    bracketSize.Gives ⟨v, size.toList ++ "]" :: ws, b, rs⟩ size ⟨"]", ws, b, rs⟩ := by
  cases size with
  | none =>
    refine (finds_advance spells_rbracket).bind fun t ht => ?_
    rw [if_pos ht.kind_eq]
    exact gives_pure _ _
  | some s =>
    obtain ⟨kind, hs, hkind⟩ := (hsize s rfl).spells
    have hne : kind ≠ .rbracket := by
      rcases hkind with rfl | rfl <;> decide
    refine (finds_advance hs).bind fun t ht => ?_
    rw [if_neg (ht.kind_ne hne), ht.text_eq]
    exact (finds_expect spells_rbracket).bind fun _ _ => gives_pure _ _

theorem gives_takeSemicolon : takeSemicolon.Gives ⟨v, ";" :: ws, b, rs⟩ () ⟨";", ws, b, rs⟩ := by
  refine (finds_peek spells_semicolon).bind fun t ht => ?_
  rw [if_pos ht.kind_eq]
  exact (finds_advance spells_semicolon).bind fun _ _ => gives_pure _ _

/-! ## Parameters -/

theorem gives_takeEmptyParameters :
    takeEmptyParameters.Gives ⟨v, ")" :: ws, b, rs⟩ true ⟨")", ws, b, rs⟩ := by
  refine gives_peekTwo_bind_first spells_rparen fun t t' ht => ?_
  dsimp only
  rw [if_pos ht.kind_eq]
  exact (finds_next spells_rparen).bind fun _ _ => gives_pure _ _

theorem gives_takeEmptyParameters_false {type : String} (htype : IsType type)
    (hw : Spells w kind text) (hvoid : kind = .rparen → type ≠ "void") :
    takeEmptyParameters.Gives ⟨v, type :: w :: ws, b, rs⟩ false ⟨v, type :: w :: ws, b, rs⟩ := by
  refine gives_peekTwo_bind htype.spells hw fun t t' ht ht' => ?_
  have hsecond : ¬(t.isWord "void" = true ∧ t'.kind = .rparen) := by
    rintro ⟨hword, hkind⟩
    rw [ht.isWord_eq_false htype (by decide) (hvoid (ht'.kind_eq.symm.trans hkind))] at hword
    cases hword
  dsimp only
  rw [if_neg (ht.kind_ne (by decide)), if_neg hsecond]
  exact gives_pure _ _

theorem gives_parameter {tail : String → Reading α} {type mark : String} {rest : List String}
    {x : α} {more : Bool} (htype : IsType type) (hmark : Parts ")" .rparen mark kind more)
    (htail : (tail type).Gives ⟨type, rest ++ mark :: ws, b, rs⟩ x ⟨mark, ws, b, rs⟩) :
    (parameter tail).Gives ⟨v, type :: (rest ++ mark :: ws), b, rs⟩ ([x], more)
      ⟨mark, ws, b, rs⟩ := by
  refine (finds_expect htype.spells).bind fun t ht => ?_
  rw [typeText_eq htype ht]
  refine htail.bind ((finds_current (hmark.spells spells_rparen)).bind fun after hafter => ?_)
  rw [hafter.kind_eq]
  cases hmark <;> exact gives_pure _ _

/-- **Parameters are read** up to the parenthesis that closes them.  Each begins with a type, and
has a name behind it or nothing; a single type `void` stands for none. -/
theorem gives_parameters {tail : String → Reading α} (hw : ∀ type, (tail type).Within)
    (type : α → String) (rest : α → List String) {xs : List α}
    (htype : ∀ x ∈ xs, IsType (type x))
    (hrest : ∀ x ∈ xs, rest x = [] ∨ ∃ n ns, rest x = n :: ns ∧ IsName n)
    (hvoid : ∀ x, xs = [x] → rest x = [] → type x ≠ "void")
    (htail : ∀ x ∈ xs, ∀ {mark kind more}, Parts ")" .rparen mark kind more → ∀ ws rs,
      (tail (type x)).Gives ⟨type x, rest x ++ mark :: ws, b, rs⟩ x ⟨mark, ws, b, rs⟩) :
    (parameters tail hw).Gives
      ⟨v, listed (xs.map fun x => type x :: rest x) ++ ")" :: ws, b, rs⟩ xs
      ⟨")", ws, b, rs⟩ := by
  cases xs with
  | nil => exact gives_takeEmptyParameters.bind (gives_pure _ _)
  | cons x xs =>
    have hx := List.mem_cons_self (a := x) (l := xs)
    obtain ⟨mark, words, hwords, hmark⟩ :=
      exists_listed_cons (type x :: rest x) (xs.map fun x => type x :: rest x) ")" ws
    have hlisted : listed ((x :: xs).map fun x => type x :: rest x) ++ ")" :: ws =
        type x :: (rest x ++ mark :: words) := hwords
    -- what follows the first type is a name or a mark
    obtain ⟨second, kind, later, hlater, hsecond, hclose⟩ : ∃ second kind later,
        rest x ++ mark :: words = second :: later ∧ Spells second kind second ∧
          (kind = .rparen → type x ≠ "void") := by
      rcases hrest x hx with hnil | ⟨n, ns, hcons, hn⟩
      · rw [hnil, List.nil_append]
        rcases hmark with ⟨rfl, hxs⟩ | ⟨rfl, -⟩
        · exact ⟨")", .rparen, words, rfl, spells_rparen, fun _ =>
            hvoid x (congrArg (x :: ·) (List.map_eq_nil_iff.1 hxs)) hnil⟩
        · exact ⟨",", .comma, words, rfl, spells_comma, fun h => nomatch h⟩
      · rw [hcons]
        exact ⟨n, .symbol, ns ++ mark :: words, rfl, hn.spells, fun h => nomatch h⟩
    have hempty : takeEmptyParameters.Gives ⟨v, type x :: second :: later, b, rs⟩ false
        ⟨v, type x :: second :: later, b, rs⟩ :=
      gives_takeEmptyParameters_false (htype x hx) hsecond hclose
    rw [← hlater, ← hlisted] at hempty
    exact hempty.bind (gives_gather (consumes_parameter hw) (List.cons_ne_nil x xs)
      fun y hy mark kind more hmark v ws rs =>
        gives_parameter (htype y hy) hmark (htail y hy hmark ws rs))

end Grammar

end AcsOutline
