import AcsOutline.Proofs.Printing.Places
import AcsOutline.Proofs.Scanner.Depths

/-!
# Tokens that are known ahead

What a declaration is read as depends on the kinds of its tokens and on the texts of some of them
(`Sign`).  `Scanner.Announces` says what the next tokens of a scanner are, with no comments before
them; so the words may be written in any case, and with any blanks and line breaks between them.

`Scanner.Leads` finds these tokens in a text, word by word, up to what follows them.
-/

namespace AcsOutline

/-- What is known of a token. -/
structure Sign where
  kind : TokenKind
  /-- The text, where it matters. -/
  text : Option String

namespace Sign

def mark (kind : TokenKind) : Sign :=
  ⟨kind, none⟩

def name (text : String) : Sign :=
  ⟨.symbol, some text⟩

end Sign

/-- All that is known of a token. -/
def Token.sign (t : Token) : Sign :=
  ⟨t.kind, some t.text⟩

namespace Scanner

/-- The next tokens of a scanner are known, and there are no comments before them. -/
def Announces (s : Scanner) : List Sign → Prop
  | [] => True
  | sign :: signs =>
    (s.next.token.kind = sign.kind ∧ ∀ text ∈ sign.text, s.next.token.text = text) ∧
      s.SkipsBlanks s.next ∧ s.next.Announces signs

instance decidableSkipsBlanks (s t : Scanner) : Decidable (s.SkipsBlanks t) :=
  decidable_of_iff
    (t.skipped = t.skipped.take (t.skipped.length - s.skipped.length) ++ s.skipped ∧
      ∀ x ∈ t.skipped.take (t.skipped.length - s.skipped.length), x.kind.isComment = false) <| by
    constructor
    · exact fun ⟨hskipped, hlater⟩ => ⟨_, hskipped, hlater⟩
    · rintro ⟨later, hskipped, hlater⟩
      have htake : t.skipped.take (t.skipped.length - s.skipped.length) = later := by
        rw [hskipped, List.length_append, Nat.add_sub_cancel, List.take_left]
      rw [htake]
      exact ⟨hskipped, hlater⟩

instance decidableAnnounces : (s : Scanner) → (signs : List Sign) → Decidable (s.Announces signs)
  | _, [] => isTrue trivial
  | s, sign :: signs =>
    let _ := decidableAnnounces s.next signs
    inferInstanceAs (Decidable
      ((s.next.token.kind = sign.kind ∧ ∀ text ∈ sign.text, s.next.token.text = text) ∧
        s.SkipsBlanks s.next ∧ s.next.Announces signs))

variable {s : Scanner}

theorem announces_append {signs later : List Sign} :
    s.Announces (signs ++ later) ↔
      s.Announces signs ∧ (s.ahead signs.length).Announces later := by
  induction signs generalizing s with
  | nil => exact ⟨fun h => ⟨trivial, h⟩, And.right⟩
  | cons sign signs ih =>
    show _ ∧ _ ∧ s.next.Announces (signs ++ later) ↔ _
    rw [ih]
    exact ⟨fun ⟨htoken, hskips, hsigns, hlater⟩ => ⟨⟨htoken, hskips, hsigns⟩, hlater⟩,
      fun ⟨⟨htoken, hskips, hsigns⟩, hlater⟩ => ⟨htoken, hskips, hsigns, hlater⟩⟩

theorem Announces.skipsBlanks {signs : List Sign} (h : s.Announces signs) :
    s.SkipsBlanks (s.ahead signs.length) := by
  induction signs generalizing s with
  | nil => exact .refl s
  | cons sign signs ih => exact h.2.1.trans (ih h.2.2)

/-! ## Words of a text -/

/-- A scanner has a text before it, perhaps after blank characters, and its mask has these
skipped. -/
structure Stands (s : Scanner) (text : List Char) : Prop where
  rest_eq : ∃ blanks, s.rest = blanks ++ text ∧
    ∀ c ∈ blanks, Text.isBlank c = true ∧ Trivia.isBreak c = false
  mask_blanks : s.mask.blanks = true

/-- A scanner reads known tokens up to a text. -/
structure Leads (s : Scanner) (signs : List Sign) (text : List Char) : Prop where
  announces : s.Announces signs
  stands : (s.ahead signs.length).Stands text

theorem Stands.skip {text : List Char} (h : s.Stands text)
    (htext : Trivia.read? s.mask text = none) :
    s.skipTrivia.rest = text ∧ s.SkipsBlanks s.next := by
  obtain ⟨blanks, hrest, hblanks⟩ := h.rest_eq
  refine skipTrivia_of_each hrest (fun c hc => ⟨.whitespace, rfl, fun rest => ?_⟩) htext
  obtain ⟨hblank, hbreak⟩ := hblanks c hc
  have hfeed : c ≠ '\n' := by rintro rfl; cases hbreak
  have hreturn : c ≠ '\r' := by rintro rfl; cases hbreak
  simp [Trivia.read?, Trivia.extent, h.mask_blanks, hblank, hbreak, hfeed, hreturn]

theorem stands_of_rest_eq {text : List Char} (hrest : s.rest = text)
    (hmask : s.mask.blanks = true) : s.Stands text :=
  ⟨⟨[], hrest, fun _ h => nomatch h⟩, hmask⟩

/-- More blank characters before a text do not matter. -/
theorem Stands.of_append {before text : List Char} (h : s.Stands (before ++ text))
    (hbefore : ∀ c ∈ before, Text.isBlank c = true ∧ Trivia.isBreak c = false) :
    s.Stands text := by
  obtain ⟨blanks, hrest, hblanks⟩ := h.rest_eq
  refine ⟨⟨blanks ++ before, by rw [hrest, List.append_assoc], fun c hc => ?_⟩, h.mask_blanks⟩
  exact (List.mem_append.1 hc).elim (hblanks c) (hbefore c)

theorem Leads.nil {text : List Char} (h : s.Stands text) : s.Leads [] text :=
  ⟨trivial, h⟩

theorem Leads.append {signs later : List Sign} {text text' : List Char} (h : s.Leads signs text)
    (h' : (s.ahead signs.length).Leads later text') : s.Leads (signs ++ later) text' where
  announces := announces_append.2 ⟨h.announces, h'.announces⟩
  stands := by
    rw [List.length_append, ← ahead_ahead]
    exact h'.stands

/-- A lexeme that a scanner stands before is the next token. -/
theorem Leads.of_read {text rest : List Char} {l : Lexeme} (h : s.Stands text)
    (htrivia : Trivia.read? s.mask text = none) (hread : Lexeme.read text = (l, rest)) :
    s.Leads [⟨l.kind, some l.text⟩] rest := by
  obtain ⟨hrest, hskips⟩ := h.skip htrivia
  have hlexeme : Lexeme.read s.skipTrivia.rest = (l, rest) := by rw [hrest, hread]
  have hkind : s.next.token.kind = l.kind := congrArg (·.1.kind) hlexeme
  have htext : s.next.token.text = l.text := congrArg (·.1.text) hlexeme
  have hmask : s.next.mask.blanks = true := by rw [mask_next, h.mask_blanks]
  refine ⟨⟨⟨hkind, fun text htext' => ?_⟩, hskips, trivial⟩,
    stands_of_rest_eq (congrArg (·.2) hlexeme) hmask⟩
  rw [← Option.some.inj htext', htext]

/-- A word that a scanner stands before is the next token. -/
theorem Leads.word {w text : String} {kind : TokenKind} {r : List Char}
    (h : s.Stands (w.toList ++ r)) (hw : Printing.Spells w kind text) (hr : Printing.Stops w r) :
    s.Leads [⟨kind, some text⟩] r := by
  have hleads := of_read h (Trivia.read?_of_all (hw.no_trivia r hr) _) (hw.read_eq r hr)
  rwa [hw.text_eq] at hleads

/-- A mark that a scanner stands before is the next token. -/
theorem Leads.mark {w text : String} {kind : TokenKind} {r : List Char}
    (h : s.Stands (w.toList ++ r)) (hw : Printing.Spells w kind text) (hr : Printing.Stops w r) :
    s.Leads [.mark kind] r := by
  obtain ⟨⟨⟨hkind, -⟩, hskips, -⟩, hstands⟩ := Leads.word h hw hr
  exact ⟨⟨⟨hkind, nofun⟩, hskips, trivial⟩, hstands⟩

/-- A space behind what was read does not matter. -/
theorem Leads.space {signs : List Sign} {text : List Char} (h : s.Leads signs ([' '] ++ text)) :
    s.Leads signs text where
  announces := h.announces
  stands := h.stands.of_append fun c hc => by
    rw [List.mem_singleton.1 hc]
    exact ⟨rfl, rfl⟩

theorem Stands.withMask {text : List Char} {mask : SkipMask} (h : s.Stands text)
    (hmask : mask.blanks = true) : (s.withMask mask).Stands text :=
  ⟨h.rest_eq, hmask⟩

/-- At the end of a text the input ends. -/
theorem Leads.eof (h : s.Stands []) : s.Leads [⟨.eof, some ""⟩] [] :=
  of_read h rfl rfl

end Scanner

end AcsOutline
