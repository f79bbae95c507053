import AcsOutline.Proofs.Grammar.Likeness
import AcsOutline.Proofs.Scanner.Comments
import AcsOutline.Proofs.Session.History

/-!
# Sources that say the same

A passage is a token with what the documentation comments before it say.  Two sources say the same if
their passages do, one by one, where every sort of trivia but line breaks is skipped
(`Scanner.Relaid`).  The tokens may stand elsewhere and on other lines then, and there may be other
blanks and other comments between them.

Scanners of such sources stay alike as tokens are read, whether line breaks are skipped or are tokens
(`Scanner.likeness_relaid`).  Where they are skipped, this is shown beside a scanner that does not
skip them: it reads the same token, or a line break that the other source has as well.
-/

namespace AcsOutline

/-- What the documentation comments among some trivia say, nothing where one cannot be read. -/
def Session.docsOf (trivia : List Trivia) : List (Option Doc) :=
  (docComments trivia).map fun x => (Doc.ofComment x.text x.span).toOption

theorem Session.docsOf_append (ts us : List Trivia) : docsOf (ts ++ us) = docsOf ts ++ docsOf us := by
  rw [docsOf, docComments, List.filter_append, List.map_append]
  rfl

/-- A token with what the documentation comments before it say. -/
structure Passage where
  docs : List (Option Doc)
  token : Token

/-- Two tokens that say the same, after documentation that says the same. -/
structure Passage.Alike (p p' : Passage) : Prop where
  docs_eq : p.docs = p'.docs
  token : p.token.Alike p'.token

theorem Passage.Alike.refl (p : Passage) : p.Alike p :=
  ⟨rfl, rfl, rfl, fun _ => rfl⟩

namespace Scanner

variable {s s' t t' : Scanner}

/-- The next token and the documentation before it. -/
def passage (s : Scanner) : Passage :=
  ⟨Session.docsOf (s.next.triviaSince s.triviaCount), s.next.token⟩

/-- Every passage up to and with the end of input. -/
def passages (s : Scanner) : List Passage :=
  if _h : s.next.token.kind = .eof then [s.passage] else s.passage :: s.next.passages
termination_by s.rest.length
decreasing_by exact rest_next_length_lt _h

theorem passages_eq (s : Scanner) :
    s.passages = s.passage :: if s.next.token.kind = .eof then [] else s.next.passages := by
  rw [passages]
  split <;> rfl

/-- The tokens of the passages are all tokens. -/
theorem map_token_passages (s : Scanner) : s.passages.map Passage.token = s.readAll.1 := by
  rw [readAll_eq]
  by_cases heof : s.next.token.kind = .eof
  · rw [passages_eq, if_pos heof, if_pos heof]
    rfl
  · have hlt : s.next.rest.length < s.rest.length := rest_next_length_lt heof
    rw [passages_eq, if_neg heof, if_neg heof, List.map_cons, map_token_passages s.next]
    rfl
termination_by s.rest.length

/-! ## One place -/

/-- Two scanners at the same place with the same mask. -/
structure Beside (s t : Scanner) : Prop where
  rest_eq : s.rest = t.rest
  position_eq : s.position = t.position
  line_eq : s.line = t.line
  mask_eq : s.mask = t.mask

/-- From one place the same trivia is skipped. -/
theorem Beside.skipTrivia (h : s.Beside t) : s.skipTrivia.Beside t.skipTrivia ∧
    ∃ later, s.skipTrivia.trivia = s.trivia ++ later ∧
      t.skipTrivia.trivia = t.trivia ++ later := by
  fun_induction Scanner.skipTrivia s generalizing t with
  | case1 s hread =>
    rw [skipTrivia_of_none (by rw [← h.mask_eq, ← h.rest_eq, hread])]
    exact ⟨h, [], (List.append_nil _).symm, (List.append_nil _).symm⟩
  | case2 s kind spelling rest hread ih =>
    have hskip : t.skipTrivia = (t.skip kind spelling rest).skipTrivia :=
      skipTrivia_of_some (by rw [← h.mask_eq, ← h.rest_eq, hread])
    have hbeside : (s.skip kind spelling rest).Beside (t.skip kind spelling rest) :=
      ⟨rfl, congrArg (· + Text.byteLength spelling) h.position_eq,
        congrArg (· + Trivia.lineBreaks kind (Trivia.textOf kind spelling)) h.line_eq, h.mask_eq⟩
    obtain ⟨hthere, later, hs, ht⟩ := ih hbeside
    have hpiece : s.piece kind spelling = t.piece kind spelling := by
      rw [piece, piece, h.position_eq, h.line_eq]
    rw [hskip]
    refine ⟨hthere, s.piece kind spelling :: later, ?_, ?_⟩
    · rw [hs, trivia_skip, List.append_assoc, List.singleton_append]
    · rw [ht, trivia_skip, List.append_assoc, List.singleton_append, hpiece]

theorem Beside.next (h : s.Beside t) : s.next.Beside t.next ∧ s.passage = t.passage := by
  obtain ⟨hthere, later, hs, ht⟩ := h.skipTrivia
  have hlexeme : Lexeme.read s.skipTrivia.rest = Lexeme.read t.skipTrivia.rest :=
    congrArg Lexeme.read hthere.rest_eq
  have hsince : s.next.triviaSince s.triviaCount = t.next.triviaSince t.triviaCount := by
    rw [triviaSince_triviaCount (t := s.next) hs, triviaSince_triviaCount (t := t.next) ht]
  refine ⟨⟨?_, ?_, ?_, hthere.mask_eq⟩, ?_⟩
  · exact congrArg Prod.snd hlexeme
  · show s.skipTrivia.position + _ = t.skipTrivia.position + _
    rw [hlexeme, hthere.position_eq]
  · show s.skipTrivia.line + _ = t.skipTrivia.line + _
    rw [hlexeme, hthere.line_eq]
  · rw [passage, passage, hsince]
    refine congrArg (Passage.mk _) ?_
    simp only [Scanner.next, readToken, hlexeme, hthere.position_eq, hthere.line_eq]

/-- From one place the same passages follow. -/
theorem Beside.passages_eq {s t : Scanner} (h : s.Beside t) : s.passages = t.passages := by
  obtain ⟨hnext, hpassage⟩ := h.next
  have hkind : t.next.token.kind = s.next.token.kind :=
    congrArg (fun p => p.token.kind) hpassage.symm
  rw [Scanner.passages_eq s, Scanner.passages_eq t, hpassage, hkind]
  by_cases heof : s.next.token.kind = .eof
  · rw [if_pos heof, if_pos heof]
  · have hlt : s.next.rest.length < s.rest.length := rest_next_length_lt heof
    rw [if_neg heof, if_neg heof, hnext.passages_eq]
termination_by s.rest.length

/-! ## The end of input -/

/-- The end of input has no text. -/
theorem alike_of_eof (h : s.next.token.kind = .eof) (h' : s'.next.token.kind = .eof) :
    s.next.token.Alike s'.next.token := by
  have htext : ∀ {u : Scanner}, u.next.token.kind = .eof → u.next.token.text = "" := by
    intro u hu
    have hspelling := (Lexeme.spelling_eq_nil_iff u.skipTrivia.rest).2 hu
    show (Lexeme.read u.skipTrivia.rest).1.text = ""
    rw [Lexeme.text, hspelling]
    split <;> rfl
  refine ⟨h.trans h'.symm, ?_, fun _ => (htext h).trans (htext h').symm⟩
  rw [Token.isUnclosedString, Token.isUnclosedString, h, h']
  rfl

/-- No documentation stands behind the end of input. -/
theorem docs_passage_next_of_eof (h : s.next.token.kind = .eof) : s.next.passage.docs = [] := by
  have htrivia : s.next.next.trivia = s.next.trivia ++ [] := by
    show s.next.skipTrivia.trivia = s.next.trivia ++ []
    rw [skipTrivia_next_of_eof h, List.append_nil]
  rw [passage, triviaSince_triviaCount htrivia]
  rfl

/-- Where passages are alike, so are those after the first one. -/
theorem forall₂_passages_next (h : List.Forall₂ Passage.Alike s.passages s'.passages) :
    s.passage.Alike s'.passage ∧
      List.Forall₂ Passage.Alike s.next.passages s'.next.passages := by
  rw [passages_eq s, passages_eq s', List.forall₂_cons] at h
  obtain ⟨hfirst, h⟩ := h
  refine ⟨hfirst, ?_⟩
  have hkind : s'.next.token.kind = s.next.token.kind := hfirst.token.kind_eq.symm
  rw [hkind] at h
  by_cases heof : s.next.token.kind = .eof
  · -- the end of input is read again
    have heof' : s'.next.token.kind = .eof := hkind.trans heof
    have hnext := kind_next_next_of_eof heof
    have hnext' := kind_next_next_of_eof heof'
    rw [passages_eq s.next, passages_eq s'.next, if_pos hnext, if_pos hnext']
    refine .cons ⟨?_, alike_of_eof hnext hnext'⟩ .nil
    rw [docs_passage_next_of_eof heof, docs_passage_next_of_eof heof']
  · rwa [if_neg heof, if_neg heof] at h

/-! ## What is documented so far -/

theorem docsOf_trivia_next (s : Scanner) :
    Session.docsOf s.next.trivia = Session.docsOf s.trivia ++ s.passage.docs := by
  rw [(Reads.refl s).next.trivia_eq, Session.docsOf_append]
  rfl

theorem Abreast.docsOf_eq (h : s.Abreast t) :
    Session.docsOf s.trivia = Session.docsOf t.trivia := by
  have hcomments : Session.docComments s.trivia = Session.docComments t.trivia := by
    rw [← Session.docComments_filter, ← Session.docComments_filter t.trivia]
    exact congrArg Session.docComments h.commentTrivia_eq.symm
  rw [Session.docsOf, Session.docsOf, hcomments]

/-- **One passage.**  It is the next one of both; or it ends with a line break or a blank, and the
other has it before its own token. -/
theorem Abreast.passage (h : s.Abreast t) :
    (s.passage = t.passage ∧ s.next.Abreast t.next) ∨
      (s.next.token.kind.isSpace = true ∧ ∃ t₁, s.next.Abreast t₁ ∧ t₁.next = t.next ∧
        t.passage = ⟨s.passage.docs ++ t₁.passage.docs, t₁.passage.token⟩) := by
  have hdocs := docsOf_trivia_next s
  have hdocs' := docsOf_trivia_next t
  rcases h.next with ⟨htoken, hnext⟩ | ⟨hspace, t₁, hnext, hsame⟩
  · left
    rw [hnext.docsOf_eq, h.docsOf_eq, hdocs', List.append_cancel_left_eq] at hdocs
    exact ⟨congrArg₂ Passage.mk hdocs.symm htoken, hnext⟩
  · right
    refine ⟨hspace, t₁, hnext, hsame, ?_⟩
    have hlater := docsOf_trivia_next t₁
    rw [← hnext.docsOf_eq, hdocs, hsame, hdocs', h.docsOf_eq, List.append_assoc,
      List.append_cancel_left_eq] at hlater
    exact congrArg₂ Passage.mk hlater (congrArg Scanner.token hsame.symm)

/-! ## Scanners that stay alike -/

/-- Two scanners with like tokens behind and like passages before them. -/
structure Relaid (mask : SkipMask) (s s' : Scanner) : Prop where
  mask_eq : s.mask = mask
  mask_eq' : s'.mask = mask
  token : s.token.Alike s'.token
  braces_eq : s.braces = s'.braces
  passages : List.Forall₂ Passage.Alike (s.withMask .lined).passages (s'.withMask .lined).passages

theorem Abreast.beside (h : s.Abreast t) (hmask : s.mask = .lined) :
    (t.withMask .lined).Beside s :=
  ⟨h.rest_eq, h.position_eq, h.line_eq, hmask.symm⟩

/-- **The next passage where line breaks are skipped**, found beside scanners that do not skip
them. -/
theorem alike_passage_of_abreast {u u' t t' : Scanner} (hu : u.mask = .lined)
    (hu' : u'.mask = .lined) (h : u.Abreast t) (h' : u'.Abreast t')
    (hpassages : List.Forall₂ Passage.Alike u.passages u'.passages) :
    t.passage.Alike t'.passage ∧ List.Forall₂ Passage.Alike (t.next.withMask .lined).passages
      (t'.next.withMask .lined).passages := by
  have hmask : t.mask = .all := h.mask_eq.trans (by rw [hu]; rfl)
  have hmask' : t'.mask = .all := h'.mask_eq.trans (by rw [hu']; rfl)
  obtain ⟨hfirst, hlater⟩ := forall₂_passages_next hpassages
  have hkind : u.next.token.kind = u'.next.token.kind := hfirst.token.kind_eq
  -- a token of the one that is no space is none of the other
  have hsolid : ∀ {v w : Scanner}, w.mask = .all → v.passage = w.passage →
      ¬v.next.token.kind.isSpace = true := by
    intro v w hw hsame
    rw [show v.next.token = w.next.token from congrArg Passage.token hsame, isSpace_next hw]
    exact Bool.false_ne_true
  rcases h.passage with ⟨hpassage, hnext⟩ | ⟨hspace, t₁, hnext, hsame, hpassage⟩ <;>
    rcases h'.passage with ⟨hpassage', hnext'⟩ | ⟨hspace', t₁', hnext', hsame', hpassage'⟩
  · rw [(hnext.beside (mask_next u ▸ hu)).passages_eq, (hnext'.beside (mask_next u' ▸ hu')).passages_eq,
      ← hpassage, ← hpassage']
    exact ⟨hfirst, hlater⟩
  · exact absurd (hkind ▸ hspace') (hsolid hmask hpassage)
  · exact absurd (hkind ▸ hspace) (hsolid hmask' hpassage')
  · have hlt : u.next.rest.length < u.rest.length :=
      rest_next_length_lt (TokenKind.ne_eof_of_isSpace hspace)
    obtain ⟨⟨hdocs, htoken⟩, hrest⟩ := alike_passage_of_abreast (mask_next u ▸ hu)
      (mask_next u' ▸ hu') hnext hnext' hlater
    rw [hpassage, hpassage', ← hsame, ← hsame', hfirst.docs_eq, hdocs]
    exact ⟨⟨rfl, htoken⟩, hrest⟩
termination_by u.rest.length

theorem Relaid.passage (h : Relaid .all s s') : s.passage.Alike s'.passage ∧
    List.Forall₂ Passage.Alike (s.next.withMask .lined).passages
      (s'.next.withMask .lined).passages := by
  have habreast : ∀ {u : Scanner}, u.mask = .all → (u.withMask .lined).Abreast u :=
    fun hu => ⟨rfl, rfl, rfl, hu, rfl⟩
  exact alike_passage_of_abreast rfl rfl (habreast h.mask_eq) (habreast h.mask_eq') h.passages

theorem Relaid.withMask {mask : SkipMask} (h : Relaid mask s s') (mask' : SkipMask) :
    Relaid mask' (s.withMask mask') (s'.withMask mask') :=
  ⟨rfl, rfl, h.token, h.braces_eq, h.passages⟩

/-- What two scanners read next is alike, if their next passages are. -/
theorem Relaid.of_next {mask : SkipMask} (h : Relaid mask s s')
    (hpassage : s.passage.Alike s'.passage)
    (hlater : List.Forall₂ Passage.Alike (s.next.withMask .lined).passages
      (s'.next.withMask .lined).passages) : Relaid mask s.next s'.next where
  mask_eq := s.mask_next.trans h.mask_eq
  mask_eq' := s'.mask_next.trans h.mask_eq'
  token := hpassage.token
  braces_eq := by
    rw [braces_next, braces_next, h.braces_eq,
      show s.next.token.kind = s'.next.token.kind from hpassage.token.kind_eq]
  passages := hlater

/-- **Scanners of sources that say the same stay alike**, outside of lines and in them. -/
theorem likeness_relaid : Likeness Token.Alike (Relaid .all) (Relaid .lined) where
  alike h := h
  token h := h.token
  braces_eq h := h.braces_eq
  next h := h.of_next h.passage.1 h.passage.2
  line :=
    { alike := id
      token := Relaid.token
      braces_eq := Relaid.braces_eq
      next := by
        intro s s' h
        have hs : s.withMask .lined = s := by rw [← h.mask_eq]; rfl
        have hs' : s'.withMask .lined = s' := by rw [← h.mask_eq']; rfl
        have hpassages := h.passages
        rw [hs, hs'] at hpassages
        obtain ⟨hpassage, hlater⟩ := forall₂_passages_next hpassages
        refine h.of_next hpassage ?_
        have hnext : s.next.withMask .lined = s.next := by
          rw [← h.mask_eq, ← s.mask_next]
          rfl
        have hnext' : s'.next.withMask .lined = s'.next := by
          rw [← h.mask_eq', ← s'.mask_next]
          rfl
        rw [hnext, hnext']
        exact hlater }
  text_next h := by
    refine h.passage.1.token.text_eq fun hkind => ?_
    have hspace := (congrArg TokenKind.isSpace hkind).symm.trans (isSpace_next h.mask_eq)
    cases hspace
  breaks h := by
    rw [h.mask_eq, h.mask_eq']
    exact h.withMask .lined
  back h h' := by
    rw [h.mask_eq, h.mask_eq']
    exact h'.withMask .all

/-- Sources say the same if their passages do. -/
theorem relaid_of_passages {source source' : String}
    (h : List.Forall₂ Passage.Alike ((ofString source).withMask .lined).passages
      ((ofString source').withMask .lined).passages) :
    (ofString source).Relaid .all (ofString source') :=
  have htoken : Token.initial.Alike .initial := ⟨rfl, rfl, fun _ => rfl⟩
  ⟨rfl, rfl, htoken, rfl, h⟩

/-- A source says the same as itself. -/
theorem relaid_refl (source : String) : (ofString source).Relaid .all (ofString source) :=
  relaid_of_passages (List.forall₂_same.2 fun p _ => .refl p)

end Scanner

end AcsOutline
