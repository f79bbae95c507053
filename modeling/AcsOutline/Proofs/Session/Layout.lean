import AcsOutline.Proofs.Doc.Returns
import AcsOutline.Proofs.Session.Alike

/-!
# Layout declares nothing

Two sources with like tokens, line breaks among them, declare the same, whatever blanks and comments
stand between the tokens, as long as none of the comments is documentation.  A source and the same
source with a return before each line feed declare the same, with the same documentation, as long as
no line ends in a string (`Document.alike_layout`).
-/

namespace AcsOutline

namespace Scanner

open Text

variable {s s' : Scanner}

/-- The tokens of a source, line breaks among them. -/
def lineTokens (source : String) : List Token :=
  ((ofString source).withMask .lined).readAll.1

/-! ## A source and the same source with returns -/

/-- Whether a string is cut off can be told from its lexeme. -/
theorem isUnclosedString_next (s : Scanner) : s.next.token.isUnclosedString =
    ((Lexeme.read s.skipTrivia.rest).1.kind == .string &&
      decide (byteLength (Lexeme.read s.skipTrivia.rest).1.spelling <
        (Lexeme.read s.skipTrivia.rest).1.text.utf8ByteSize + 2)) := by
  have hlength : ∀ start n, (Span.ofEnds start (start + n)).length = n := by
    intro start n
    show max start (start + n) - start = n
    omega
  show (_ && decide ((Span.ofEnds _ (_ + _)).length < _)) = _
  rw [hlength]
  rfl

/-- The other scanner has the same left to read, with returns. -/
structure Relined (s s' : Scanner) : Prop where
  mask_eq : s.mask = .lined
  mask_eq' : s'.mask = .lined
  no_return : '\r' ∉ s.rest
  rest_eq : s'.rest = withReturns s.rest

/-- A piece of trivia is the same documentation with returns, if it is documentation. -/
theorem docsOf_piece_withReturns (s s' : Scanner) {mask : SkipMask} {cs spelling rest : List Char}
    {kind : TriviaKind} (h : Trivia.read? mask cs = some (kind, spelling, rest)) :
    Session.docsOf [s'.piece kind (withReturns spelling)] =
      Session.docsOf [s.piece kind spelling] := by
  cases kind with
  | newline | whitespace | lineComment => rfl
  | blockComment =>
    have htext : Trivia.textOf .blockComment (withReturns spelling) =
        withReturns (Trivia.textOf .blockComment spelling) := by
      obtain ⟨body, rfl⟩ : ∃ body, spelling = '/' :: '*' :: body := by
        rcases Trivia.marked_of_read? h with hspelling | ⟨hspelling, -⟩
        · exact ⟨_, hspelling⟩
        · exact ⟨_, hspelling⟩
      rw [withReturns_cons (by decide), withReturns_cons (by decide)]
      exact Trivia.commentBody_withReturns body
    unfold piece
    generalize Trivia.textOf .blockComment spelling = text at htext ⊢
    rw [htext, Session.docsOf, Session.docsOf, Session.docComments, Session.docComments]
    by_cases hdoc : Doc.isComment (String.ofList text) = true
    · rw [List.filter_cons_of_pos (by rw [Doc.isComment_withReturns, hdoc]; rfl),
        List.filter_cons_of_pos (by rw [hdoc]; rfl)]
      exact congrArg (fun doc => [doc]) (Doc.toOption_ofComment_withReturns text _ _)
    · rw [List.filter_cons_of_neg (by rw [Doc.isComment_withReturns]; simpa using hdoc),
        List.filter_cons_of_neg (by simpa using hdoc)]

namespace Relined

theorem skipTrivia (h : s.Relined s') : s.skipTrivia.Relined s'.skipTrivia ∧
    ∃ later later', s.skipTrivia.trivia = s.trivia ++ later ∧
      s'.skipTrivia.trivia = s'.trivia ++ later' ∧
      Session.docsOf later = Session.docsOf later' := by
  fun_induction Scanner.skipTrivia s generalizing s' with
  | case1 s hread =>
    have hread' : Trivia.read? s'.mask s'.rest = none := by
      rw [h.mask_eq] at hread
      rw [h.mask_eq', h.rest_eq, Trivia.read?_withReturns h.no_return, hread]
      rfl
    rw [skipTrivia_of_none hread']
    exact ⟨h, [], [], (List.append_nil _).symm, (List.append_nil _).symm, rfl⟩
  | case2 s kind spelling rest hread ih =>
    have hread' : Trivia.read? s'.mask s'.rest =
        some (kind, withReturns spelling, withReturns rest) := by
      have hlined := hread
      rw [h.mask_eq] at hlined
      rw [h.mask_eq', h.rest_eq, Trivia.read?_withReturns h.no_return, hlined]
      rfl
    have hrelined : (s.skip kind spelling rest).Relined
        (s'.skip kind (withReturns spelling) (withReturns rest)) := by
      refine ⟨h.mask_eq, h.mask_eq', fun hmem => h.no_return ?_, rfl⟩
      rw [← Trivia.read?_append hread]
      exact List.mem_append_right _ hmem
    obtain ⟨hthere, later, later', hs, hs', hdocs⟩ := ih hrelined
    rw [skipTrivia_of_some hread']
    refine ⟨hthere, s.piece kind spelling :: later,
      s'.piece kind (withReturns spelling) :: later', ?_, ?_, ?_⟩
    · rw [hs, trivia_skip, List.append_assoc, List.singleton_append]
    · rw [hs', trivia_skip, List.append_assoc, List.singleton_append]
    · rw [← List.singleton_append, Session.docsOf_append, ← List.singleton_append (l := later'),
        Session.docsOf_append, hdocs, docsOf_piece_withReturns s s' hread]

/-- **One passage with returns.**  It is the same, unless it is a string in which a line ends. -/
theorem next (h : s.Relined s')
    (hstring : s.next.token.kind = .string → '\n' ∉ s.next.token.text.toList) :
    s.next.Relined s'.next ∧ s.passage.Alike s'.passage := by
  obtain ⟨hthere, later, later', hs, hs', hdocs⟩ := h.skipTrivia
  obtain ⟨hrest, hkind, hlexeme⟩ := Lexeme.relined_read hthere.no_return hstring
  rw [← hthere.rest_eq] at hrest hkind hlexeme
  refine ⟨⟨hthere.mask_eq, hthere.mask_eq', fun hmem => hthere.no_return ?_, hrest⟩, ?_, hkind.symm,
    ?_, fun hne => congrArg Lexeme.text (hlexeme hne).symm⟩
  · rw [← Lexeme.read_append s.skipTrivia.rest]
    exact List.mem_append_right _ hmem
  · rw [passage, passage, triviaSince_triviaCount (t := s.next) hs,
      triviaSince_triviaCount (t := s'.next) hs']
    exact hdocs
  · show s.next.token.isUnclosedString = s'.next.token.isUnclosedString
    rw [isUnclosedString_next, isUnclosedString_next, hkind]
    by_cases hnewline : (Lexeme.read s.skipTrivia.rest).1.kind = .newline
    · rw [hnewline]
      rfl
    · rw [hlexeme hnewline]

/-- Passages with returns are the same, if no line ends in a string. -/
theorem passages {s s' : Scanner} (h : s.Relined s')
    (hstring : ∀ t ∈ s.readAll.1, t.kind = .string → '\n' ∉ t.text.toList) :
    List.Forall₂ Passage.Alike s.passages s'.passages := by
  have hfirst : s.next.token ∈ s.readAll.1 := by
    rw [readAll_eq]
    split <;> exact List.mem_cons_self
  obtain ⟨hnext, hpassage⟩ := h.next (hstring _ hfirst)
  have hkind : s.next.token.kind = s'.next.token.kind := hpassage.token.kind_eq
  rw [passages_eq, passages_eq s', ← hkind]
  refine .cons hpassage ?_
  by_cases heof : s.next.token.kind = .eof
  · rw [if_pos heof, if_pos heof]
    exact .nil
  · have hlt : s.next.rest.length < s.rest.length := rest_next_length_lt heof
    rw [if_neg heof, if_neg heof]
    refine hnext.passages fun t ht => hstring t ?_
    rw [readAll_eq, if_neg heof]
    exact List.mem_cons_of_mem _ ht
termination_by s.rest.length

end Relined

/-- **A source says the same with returns**, if no line ends in a string. -/
theorem relaid_withReturns {source : String} (hreturn : '\r' ∉ source.toList)
    (hstring : ∀ t ∈ lineTokens source, t.kind = .string → '\n' ∉ t.text.toList) :
    (ofString source).Relaid .all (ofString (String.ofList (withReturns source.toList))) := by
  refine relaid_of_passages (Relined.passages ⟨rfl, rfl, hreturn, ?_⟩ hstring)
  exact String.toList_ofList

/-! ## Sources without documentation -/

/-- No block comment of a source is documentation. -/
def Undocumented (source : String) : Prop :=
  ∀ x ∈ commentsOf source, x.kind = .blockComment → Doc.isComment x.text = false

/-- What is documented in the end is what the passages say. -/
theorem docsOf_readAll (s : Scanner) : Session.docsOf s.readAll.2.trivia =
    Session.docsOf s.trivia ++ s.passages.flatMap Passage.docs := by
  rw [readAll_eq, passages_eq]
  by_cases heof : s.next.token.kind = .eof
  · rw [if_pos heof, if_pos heof, docsOf_trivia_next, List.flatMap_cons, List.flatMap_nil,
      List.append_nil]
  · have hlt : s.next.rest.length < s.rest.length := rest_next_length_lt heof
    rw [if_neg heof, if_neg heof, docsOf_readAll s.next, docsOf_trivia_next, List.flatMap_cons,
      List.append_assoc]
termination_by s.rest.length

/-- Without documentation, passages are tokens. -/
theorem Undocumented.passages_eq {source : String} (h : Undocumented source) :
    ((ofString source).withMask .lined).passages = (lineTokens source).map (Passage.mk []) := by
  have hdocs : Session.docsOf ((ofString source).withMask .lined).readAll.2.trivia = [] := by
    have hcomments : ((ofString source).withMask .lined).readAll.2.commentTrivia =
        commentsOf source := commentTrivia_readAll_withMask (ofString source) rfl rfl
    rw [Session.docsOf, ← Session.docComments_filter]
    show (Session.docComments ((ofString source).withMask .lined).readAll.2.commentTrivia).map _ = []
    rw [hcomments, List.map_eq_nil_iff, Session.docComments, List.filter_eq_nil_iff]
    intro x hx hdoc
    rw [Bool.and_eq_true, beq_iff_eq] at hdoc
    rw [h x hx hdoc.1] at hdoc
    cases hdoc.2
  rw [docsOf_readAll] at hdocs
  have hnone := List.flatMap_eq_nil_iff.1 (List.append_eq_nil_iff.1 hdocs).2
  rw [lineTokens, ← map_token_passages, List.map_map]
  refine (List.map_id _).symm.trans (List.map_congr_left fun p hp => ?_)
  show p = ⟨[], p.token⟩
  rw [← hnone p hp]

/-- **Sources without documentation say the same if their tokens do.** -/
theorem relaid_of_lineTokens {source source' : String}
    (h : List.Forall₂ Token.Alike (lineTokens source) (lineTokens source'))
    (hdoc : Undocumented source) (hdoc' : Undocumented source') :
    (ofString source).Relaid .all (ofString source') := by
  refine relaid_of_passages ?_
  rw [hdoc.passages_eq, hdoc'.passages_eq, List.forall₂_map_left_iff, List.forall₂_map_right_iff]
  exact h.imp fun _ _ ht => ⟨rfl, ht⟩

end Scanner

/-- **Layout and comments declare nothing.**  Two sources whose tokens are alike, line breaks among
them, and whose block comments are no documentation, give documents that declare the same, or fail
with one code and in one form; and so do a source without returns and the same source with a return
before each line feed, if no line ends in a string. -/
theorem Document.alike_layout (options : ReadOptions) (isCancelled : Bool) (files : SourceFiles)
    (name source : String) :
    (∀ source' : String,
      List.Forall₂ Token.Alike (Scanner.lineTokens source) (Scanner.lineTokens source') →
      Scanner.Undocumented source → Scanner.Undocumented source' →
      Document.Alike (ofSource options isCancelled files name source)
        (ofSource options isCancelled files name source')) ∧
    ('\r' ∉ source.toList →
      (∀ t ∈ Scanner.lineTokens source, t.kind = .string → '\n' ∉ t.text.toList) →
      Document.Alike (ofSource options isCancelled files name source)
        (ofSource options isCancelled files name
          (String.ofList (Text.withReturns source.toList)))) :=
  ⟨fun _ h hdoc hdoc' =>
      alike_of_relaid options isCancelled files name (Scanner.relaid_of_lineTokens h hdoc hdoc'),
    fun hreturn hstring =>
      alike_of_relaid options isCancelled files name (Scanner.relaid_withReturns hreturn hstring)⟩

/-- An array that is written closer, with a comment behind it and another line break; and a
declaration with documentation on two lines. -/
theorem Document.alike_layout_array :
    (List.Forall₂ Token.Alike (Scanner.lineTokens "int a[1] = { 7 };\n#define Y -1\n")
        (Scanner.lineTokens "int a[1]={7}; // once\r\n#define /* twice */ Y -1\n") ∧
      Scanner.Undocumented "int a[1] = { 7 };\n#define Y -1\n" ∧
      Scanner.Undocumented "int a[1]={7}; // once\r\n#define /* twice */ Y -1\n" ∧
      '\r' ∉ "/** Once\n */\nstr s = \"a\";".toList ∧
      ∀ t ∈ Scanner.lineTokens "/** Once\n */\nstr s = \"a\";",
        t.kind = .string → '\n' ∉ t.text.toList) ∧
    Document.Alike
      (ofSource .standard false (.ofList []) "main.acs" "int a[1] = { 7 };\n#define Y -1\n")
      (ofSource .standard false (.ofList []) "main.acs"
        "int a[1]={7}; // once\r\n#define /* twice */ Y -1\n") ∧
    Document.Alike
      (ofSource .standard false (.ofList []) "main.acs" "/** Once\n */\nstr s = \"a\";")
      (ofSource .standard false (.ofList []) "main.acs"
        (String.ofList (Text.withReturns "/** Once\n */\nstr s = \"a\";".toList))) := by
  have htokens : List.Forall₂ Token.Alike
      (Scanner.lineTokens "int a[1] = { 7 };\n#define Y -1\n")
      (Scanner.lineTokens "int a[1]={7}; // once\r\n#define /* twice */ Y -1\n") := by
    decide +kernel
  have hdoc : Scanner.Undocumented "int a[1] = { 7 };\n#define Y -1\n" := by
    unfold Scanner.Undocumented
    decide +kernel
  have hdoc' : Scanner.Undocumented "int a[1]={7}; // once\r\n#define /* twice */ Y -1\n" := by
    unfold Scanner.Undocumented
    decide +kernel
  have hreturn : '\r' ∉ "/** Once\n */\nstr s = \"a\";".toList := by decide
  have hstring : ∀ t ∈ Scanner.lineTokens "/** Once\n */\nstr s = \"a\";",
      t.kind = .string → '\n' ∉ t.text.toList := by
    decide +kernel
  exact ⟨⟨htokens, hdoc, hdoc', hreturn, hstring⟩,
    (alike_layout .standard false (.ofList []) "main.acs" _).1 _ htokens hdoc hdoc',
    (alike_layout .standard false (.ofList []) "main.acs" _).2 hreturn hstring⟩

end AcsOutline
