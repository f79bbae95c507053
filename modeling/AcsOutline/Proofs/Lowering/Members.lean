import AcsOutline.Document
import AcsOutline.Lowering
import AcsOutline.Proofs.Printing.Rounds
import AcsOutline.Proofs.Scanner.Returns
import AcsOutline.Proofs.Value.Inline

/-!
# Members and defines

An enum with one member becomes the define that could have been written in its place
(`Document.lower_member_eq_lower_define`).  The value of the member is read up to the closing brace,
with line breaks skipped, and the value of the define up to the end of its line, where line breaks
are tokens; it is the same wherever its text is one value.
-/

namespace AcsOutline

open Printing (IsName)

namespace Sign

/-- An enum with one member whose value has given tokens. -/
def member (name : String) (ts : List Token) : List Sign :=
  [mark (.keyword .enumWord), mark .lbrace, Sign.name name, mark .equals] ++
    (ts.map Token.sign ++ [mark .rbrace]) ++ [mark .semicolon]

@[simp]
theorem length_member (name : String) (ts : List Token) :
    (member name ts).length = ts.length + 6 := by
  simp [member]

/-- A define up to its value. -/
def defineHead (key : String) : List Sign :=
  [mark .hash, Sign.name "define", Sign.name key]

end Sign

/-- A line break as a token. -/
def LineBreak.sign (b : LineBreak) : Sign :=
  ⟨.newline, some (Lexeme.mk .newline b.spelling).text⟩

/-- The value that a text spells on a line. -/
def Value.ofText (text : String) : Value :=
  .ofRun (Scanner.onLine text.toList).tokensLeft

/-- A scanner for which line breaks are tokens from here on. -/
def Scanner.byLine (s : Scanner) : Scanner :=
  s.withMask { s.mask with newlines := false }

/-! ## Reading the declarations -/

namespace Grammar

open Reading

variable {s : Scanner} {ts : List Token} {name : String}

theorem memberValue_eq (hequals : s.next.token.kind = .equals)
    (h : s.next.Announces (ts.map Token.sign ++ [.mark .rbrace]))
    (hgoes : ∀ x ∈ ts, Value.endsValue x.kind = false) :
    memberValue s = .ok (some (.ofRun ts)) (s.ahead (ts.length + 2)) := by
  have hfirst : s.next.next.token.kind ≠ .eof := by
    cases ts with
    | nil =>
      have hbrace : s.next.next.token.kind = .rbrace := h.1.1
      rw [hbrace]
      decide
    | cons t ts =>
      have hkind : s.next.next.token.kind = t.kind := h.1.1
      rw [hkind]
      exact Value.ne_of_endsValue (hgoes t List.mem_cons_self) rfl
  rw [memberValue, next_bind, if_pos hequals, advance_bind, if_neg hfirst]
  exact map_of_ok (Value.read_of_announces h hgoes rfl nofun) some

/-- An enum member is read up to the closing brace. -/
theorem enumMember_eq
    (h : s.Announces (.name name :: .mark .equals :: (ts.map Token.sign ++ [.mark .rbrace])))
    (hgoes : ∀ x ∈ ts, Value.endsValue x.kind = false) :
    enumMember s = .ok ([⟨name, some (.ofRun ts)⟩], false) (s.ahead (ts.length + 3)) := by
  obtain ⟨⟨hname, htext⟩, -, ⟨hequals, -⟩, -, hvalue⟩ := h
  have hbrace : (s.ahead (ts.length + 3)).token.kind = .rbrace := by
    have hkind := hvalue.kind_next
    rw [List.length_map] at hkind
    exact hkind
  have hsymbol : s.next.token.kind = .symbol := hname
  rw [enumMember, next_bind, if_neg (by rw [hsymbol]; decide), check_of_kind hsymbol (by decide),
    pure_bind, enumMemberTail, bind_of_ok (memberValue_eq hequals hvalue hgoes), current_bind]
  have hafter : (s.next.ahead (ts.length + 2)).token.kind = .rbrace := hbrace
  rw [hafter, htext name rfl]
  rfl

/-- A list whose first item is its last. -/
theorem gather_of_last {α : Type} {round : Reading (List α × Bool)} (hround : round.Consumes)
    {items : List α} {t : Scanner} (h : round s = .ok (items, false) t) :
    gather round hround s = .ok items t := by
  rw [gather, loop_eq, gatherRound, bind_of_ok h]
  show EStateM.Result.ok (items.reverse ++ []).reverse t = _
  rw [List.append_nil, List.reverse_reverse]

/-- **An enum with one member** is read up to the semicolon behind it. -/
theorem enumDeclaration_eq_some (h : s.Announces (Sign.member name ts))
    (hgoes : ∀ x ∈ ts, Value.endsValue x.kind = false) :
    enumDeclaration s.next =
      .ok (some (.enum ⟨false, none, none, [⟨name, some (.ofRun ts)⟩]⟩))
        (s.ahead (Sign.member name ts).length) := by
  obtain ⟨⟨⟨henum, -⟩, -, ⟨hlbrace, -⟩, -, hmember⟩, ⟨hsemicolon, -⟩, -⟩ :=
    Scanner.announces_append.1 h
  have hword : s.next.token.kind = .keyword .enumWord := henum
  have hopen : s.next.next.token.kind = .lbrace := hlbrace
  have hbehind : (s.ahead (ts.length + 5)).next.token.kind = .semicolon := by
    simpa [Sign.mark] using hsemicolon
  have hplain : s.next.unmodified = s.next := Scanner.unmodified_of_ne (by rw [hword]; decide)
  have hhead : aggregateHead .enumWord s.next = .ok (some false) s.next := by
    rw [aggregateHead_eq, hplain, if_pos hword, Scanner.isPrivate, hword]
    rfl
  have hname : takeName s.next.next = .ok none s.next.next := by
    rw [takeName, current_bind, if_neg (by rw [hopen]; decide)]
    rfl
  have htype : takeUnderlying s.next.next = .ok none s.next.next := by
    rw [takeUnderlying, current_bind, if_neg (by rw [hopen]; decide)]
    rfl
  have hmembers : gather enumMember consumes_enumMember s.next.next =
      .ok [⟨name, some (.ofRun ts)⟩] (s.ahead (ts.length + 5)) :=
    gather_of_last _ (enumMember_eq hmember hgoes)
  have hend : takeSemicolon (s.ahead (ts.length + 5)) = .ok () (s.ahead (ts.length + 6)) := by
    rw [takeSemicolon, peek_bind, if_pos hbehind, advance_bind, if_neg (by rw [hbehind]; decide),
      ← Scanner.ahead_succ]
    rfl
  rw [enumDeclaration, bind_of_ok hhead]
  dsimp only
  rw [next_bind, bind_of_ok hname, bind_of_ok htype, current_bind,
    check_of_kind hopen (by decide), pure_bind, bind_of_ok hmembers, bind_of_ok hend,
    Sign.length_member]
  rfl

theorem isWord_define {t : Token} (hkind : t.kind = .symbol) (htext : t.text = "define") :
    t.isWord "define" = true := by
  rw [Token.isWord, hkind, htext]
  decide

/-- **A define** is read up to the token that ends its value. -/
theorem defineDirective_eq_some {closing : Sign} (h : s.Announces (Sign.defineHead name))
    (hvalue : (s.ahead 3).byLine.Announces (ts.map Token.sign ++ [closing]))
    (hgoes : ∀ x ∈ ts, Value.endsValue x.kind = false)
    (hends : Value.endsValue closing.kind = true)
    (hlast : closing.kind = .eof → ∀ x ∈ ts.getLast?, x.kind ≠ .lparen) :
    defineDirective s.next = .ok (some (.define ⟨Text.uppercase name, .ofRun ts⟩))
      (((s.ahead 3).byLine.ahead (ts.length + 1)).withMask (s.ahead 3).mask) := by
  obtain ⟨⟨hhash, -⟩, -, ⟨hsymbol, hdefine⟩, -, ⟨hname, htext⟩, -⟩ := h
  have hword : s.next.next.token.isWord "define" = true := isWord_define hsymbol (hdefine _ rfl)
  have hhead : directiveWord "define" s.next = .ok (some ()) s.next.next := by
    rw [directiveWord_eq, if_pos ⟨hhash, hword⟩]
  have hkey : expect .symbol "define name" s.next.next = .ok (s.ahead 3).token (s.ahead 3) := by
    have hkind : s.next.next.next.token.kind = .symbol := hname
    rw [expect, next_bind, check_of_kind hkind (by decide)]
    rfl
  have hline : withLineBreaks (do let _ ← next; Value.read) (s.ahead 3) =
      .ok (.ofRun ts) (((s.ahead 3).byLine.ahead (ts.length + 1)).withMask (s.ahead 3).mask) := by
    have hbody : (do let _ ← next; Value.read : Reading Value) (s.ahead 3).byLine =
        .ok (.ofRun ts) ((s.ahead 3).byLine.ahead (ts.length + 1)) :=
      (next_bind _ _).trans (Value.read_of_announces hvalue hgoes hends hlast)
    rw [withLineBreaks, ← Scanner.byLine, hbody]
  have hbody : defineBody s.next.next = .ok ⟨Text.uppercase name, .ofRun ts⟩
      (((s.ahead 3).byLine.ahead (ts.length + 1)).withMask (s.ahead 3).mask) := by
    have hkeyText : (s.ahead 3).token.text = name := htext name rfl
    rw [defineBody, bind_of_ok hkey, bind_of_ok hline, hkeyText]
    rfl
  rw [defineDirective, directive, bind_of_ok hhead]
  exact map_of_ok (map_of_ok hbody Declaration.define) some

end Grammar

open Grammar in
theorem recognize_member {s : Scanner} {ts : List Token} {name : String}
    (h : s.Announces (Sign.member name ts))
    (hgoes : ∀ x ∈ ts, Value.endsValue x.kind = false) (b : Builder) :
    recognize ⟨s.next, b⟩ =
      .ok (some (.enum ⟨false, none, none, [⟨name, some (.ofRun ts)⟩]⟩))
        ⟨s.ahead (Sign.member name ts).length, b⟩ := by
  have hword : s.next.token.kind = .keyword .enumWord := h.1.1
  have hform : s.next.form? = some .enum := by
    refine Scanner.form?_eq_modifiedForm? ?_
    rw [Scanner.unmodified_of_ne (by rw [hword]; decide), Scanner.modifiedForm?, hword]
  exact recognize_of_matched hform (Form.ofReading_eq_matched (enumDeclaration_eq_some h hgoes))

open Grammar in
theorem recognize_define {s : Scanner} {ts : List Token} {name : String} {closing : Sign}
    (h : s.Announces (Sign.defineHead name))
    (hvalue : (s.ahead 3).byLine.Announces (ts.map Token.sign ++ [closing]))
    (hgoes : ∀ x ∈ ts, Value.endsValue x.kind = false)
    (hends : Value.endsValue closing.kind = true)
    (hlast : closing.kind = .eof → ∀ x ∈ ts.getLast?, x.kind ≠ .lparen) (b : Builder) :
    recognize ⟨s.next, b⟩ = .ok (some (.define ⟨Text.uppercase name, .ofRun ts⟩))
      ⟨((s.ahead 3).byLine.ahead (ts.length + 1)).withMask (s.ahead 3).mask, b⟩ := by
  obtain ⟨⟨hhash, -⟩, -, ⟨hsymbol, hdefine⟩, -⟩ := id h
  have hkind : s.next.token.kind = .hash := hhash
  have hmem : ("define", Form.define) ∈ Form.directives := by decide
  have hform : s.next.form? = some .define := by
    rw [Scanner.form?, hkind]
    exact Token.directive?_of_isWord hmem (isWord_define hsymbol (hdefine _ rfl))
  exact recognize_of_matched hform
    (Form.ofReading_eq_matched (defineDirective_eq_some h hvalue hgoes hends hlast))

/-! ## Sources with one declaration -/

/-- The last declaration of a file, where there are no comments. -/
theorem Run.complete_of_last {files : SourceFiles} {session : Session} {file : OpenFile}
    {d : Declaration} {t : Scanner} (hgo : session.isCancelled = false)
    (hdoc : session.pendingDoc = none) (hfirst : file.scanner.SkipsBlanks file.scanner.next)
    (hkind : file.scanner.next.token.kind ≠ .eof) (hinclude : ∀ path, d ≠ .includeFile path)
    (hrecognize : ∀ b, recognize ⟨file.scanner.next, b⟩ = .ok (some d) ⟨t, b⟩)
    (hskips : file.scanner.next.SkipsBlanks t) (hnext : t.SkipsBlanks t.next)
    (heof : t.next.token.kind = .eof) :
    (Run.mk session [file]).complete files = (none, { session with
      builder := session.builder.pushEntry ⟨d, file.scanner.next.token.line, none⟩ }) := by
  have hstep : (Run.mk session [file]).step files =
      .reading ⟨session.addDeclaration d file.scanner.next.token.line,
        [{ file with scanner := t }]⟩ := by
    rw [step_of_recognize_some hgo hfirst hkind hinclude (hrecognize _),
      Session.harvest_eq_self (Trivia.lineComments_eq_nil hskips.isComment_eq)]
  have hend : (Run.mk (session.addDeclaration d file.scanner.next.token.line)
      [{ file with scanner := t }]).complete files =
        (none, session.addDeclaration d file.scanner.next.token.line) :=
    complete_of_eof hgo hnext heof
  rw [complete_eq, hstep]
  dsimp only
  rw [hend, Session.addDeclaration, hdoc]

/-- A source is read as the one declaration in it, where there are no comments. -/
theorem Document.ofSource_eq_single (options : ReadOptions) (files : SourceFiles)
    (name : String) {source : String} {d : Declaration} {t : Scanner}
    (hnone : Trivia.read? .all source.toList = none)
    (hkind : (Scanner.ofString source).next.token.kind ≠ .eof)
    (hinclude : ∀ path, d ≠ .includeFile path)
    (hrecognize : ∀ b, recognize ⟨(Scanner.ofString source).next, b⟩ = .ok (some d) ⟨t, b⟩)
    (hskips : (Scanner.ofString source).next.SkipsBlanks t) (hnext : t.SkipsBlanks t.next)
    (heof : t.next.token.kind = .eof) :
    ofSource options false files name source =
      .ok ⟨⟨#[], #[⟨d, 1, none⟩], []⟩, #[], #[(files.resolve name).key]⟩ := by
  have hskip : (Scanner.ofString source).skipTrivia = Scanner.ofString source :=
    Scanner.skipTrivia_of_none hnone
  have hskipped : (Scanner.ofString source).next.skipped = [] := congrArg Scanner.skipped hskip
  have hfirst : (Scanner.ofString source).SkipsBlanks (Scanner.ofString source).next :=
    ⟨[], hskipped, nofun⟩
  have hline : (Scanner.ofString source).next.token.line = 1 := congrArg Scanner.line hskip
  have hread := @Run.complete_of_last files
    { Session.start options with visited := #[(files.resolve name).key] }
    (.start name source (Path.parent? name)) d t rfl rfl hfirst hkind hinclude hrecognize hskips
    hnext heof
  rw [ofSource, if_neg Bool.false_ne_true, Session.readSource, Session.visit_start, hread]
  show Except.ok (Document.mk ⟨#[], #[⟨d, (Scanner.ofString source).next.token.line, none⟩], []⟩
    #[] #[(files.resolve name).key]) = _
  rw [hline]

/-! ## Texts of the declarations -/

namespace Scanner

open Lexeme (Delimited delimited_space)
open Printing

theorem toList_member (name text : String) :
    ("enum \x7b " ++ name ++ " = " ++ text ++ " \x7d;").toList =
      "enum".toList ++ ([' '] ++ ("\x7b".toList ++ ([' '] ++ (name.toList ++ ([' '] ++
        ("=".toList ++ ([' '] ++ (text.toList ++ ([' '] ++ ("\x7d".toList ++
          (";".toList ++ []))))))))))) := by
  simp

theorem toList_define (key rest : String) : ("#define " ++ key ++ " " ++ rest).toList =
    "#".toList ++ ("define".toList ++ ([' '] ++ (key.toList ++ ([' '] ++ rest.toList)))) := by
  simp

theorem read?_member (name text : String) :
    Trivia.read? .all ("enum \x7b " ++ name ++ " = " ++ text ++ " \x7d;").toList = none := by
  rw [toList_member]
  exact (spells_keyword .enumWord).no_trivia _ (Or.inr (delimited_space _))

theorem read?_define (key rest : String) :
    Trivia.read? .all ("#define " ++ key ++ " " ++ rest).toList = none := by
  rw [toList_define]
  exact spells_hash.no_trivia _ (Or.inl (by decide))

/-- The tokens of an enum with one member. -/
theorem leads_member {name text : String} (hname : IsName name) (ht : Value.IsInline text.toList) :
    (ofString ("enum \x7b " ++ name ++ " = " ++ text ++ " \x7d;")).Leads
      (Sign.member name (onLine text.toList).tokensLeft) [] := by
  have hstands := stands_of_rest_eq (s := ofString _) (toList_member name text) rfl
  have hspace : ∀ w r, Stops w ([' '] ++ r) := fun _ r => Or.inr (delimited_space r)
  have henum := (Leads.mark hstands (spells_keyword .enumWord) (hspace _ _)).space
  have hopen := (Leads.mark henum.stands spells_lbrace (hspace _ _)).space
  have hmember := (Leads.word hopen.stands hname.spells (hspace _ _)).space
  have hequals := (Leads.mark hmember.stands spells_equals (hspace _ _)).space
  have hvalue := (leads_of_isInline ht (delimited_space _) hequals.stands).space
  have hclose := hvalue.append (Leads.mark hvalue.stands spells_rbrace
    (Or.inr (Lexeme.delimited_cons (by decide) [])))
  have hend := Leads.mark hclose.stands spells_semicolon (Or.inr Lexeme.delimited_nil)
  exact henum.append (hopen.append (hmember.append (hequals.append (hclose.append hend))))

/-- A text at which the line of a define ends, and with it the input, and the token that is read
there. -/
structure EndsLine (eol : List Char) (closing : Sign) : Prop where
  delimited : Delimited eol
  ends_value : Value.endsValue closing.kind = true
  leads : ∀ s : Scanner, s.mask = .line → s.Stands eol → s.Leads [closing] []

theorem endsLine_spelling (b : LineBreak) : EndsLine b.spelling b.sign where
  delimited := b.delimited_spelling
  ends_value := rfl
  leads s hmask h := .of_read h (b.read?_spelling_eq_none (by rw [hmask]; rfl)) b.read_spelling

theorem endsLine_nil : EndsLine [] ⟨.eof, some ""⟩ where
  delimited := Lexeme.delimited_nil
  ends_value := rfl
  leads _ _ h := .eof h

/-- The tokens of a value up to the end of its line. -/
theorem leads_byLine {s : Scanner} {text eol : List Char} {closing : Sign} (hmask : s.mask = .all)
    (h : s.Stands (text ++ eol)) (ht : Value.IsInline text) (heol : EndsLine eol closing) :
    s.byLine.Leads ((onLine text).tokensLeft.map Token.sign ++ [closing]) [] := by
  have hline : s.byLine.mask = .line := by
    rw [byLine, hmask]
    rfl
  have hvalue := leads_of_isInline ht heol.delimited (h.withMask (congrArg SkipMask.blanks hline))
  exact hvalue.append (heol.leads _ ((mask_ahead _ _).trans hline) hvalue.stands)

/-- The tokens of a define up to its value. -/
theorem leads_define {key : String} (hkey : IsName key) (rest : String) :
    (ofString ("#define " ++ key ++ " " ++ rest)).Leads (Sign.defineHead key) rest.toList := by
  have hstands := stands_of_rest_eq (s := ofString _) (toList_define key rest) rfl
  have hword : IsName "define" := ⟨.of_check (by decide), by decide⟩
  have hhash := Leads.mark hstands spells_hash (Or.inl (by decide))
  have hdefine := (Leads.word hhash.stands hword.spells (Or.inr (delimited_space _))).space
  have hname := (Leads.word hdefine.stands hkey.spells (Or.inr (delimited_space _))).space
  exact hhash.append (hdefine.append hname)

end Scanner

/-! ## Lowering -/

namespace Document

variable (options : ReadOptions) (files : SourceFiles) (name : String) {key text : String}

/-- An enum with one member is read from its text. -/
theorem ofSource_member (hkey : IsName key) (ht : Value.IsInline text.toList) :
    ofSource options false files name ("enum \x7b " ++ key ++ " = " ++ text ++ " \x7d;") =
      .ok ⟨⟨#[], #[⟨.enum ⟨false, none, none, [⟨key, some (.ofText text)⟩]⟩, 1, none⟩], []⟩, #[],
        #[(files.resolve name).key]⟩ := by
  have hleads := Scanner.leads_member hkey ht
  obtain ⟨⟨hkind, -⟩, -, hrest⟩ := hleads.announces
  obtain ⟨⟨heof, -⟩, hend, -⟩ := (Scanner.Leads.eof hleads.stands).announces
  exact ofSource_eq_single options files name (Scanner.read?_member key text)
    (ne_of_eq_of_ne hkind (by decide)) nofun
    (recognize_member hleads.announces ht.goes_on) hrest.skipsBlanks hend heof

/-- A define is read from its line, up to a line break or to the end of input. -/
theorem ofSource_define {eol : String} {closing : Sign} (hkey : IsName key)
    (ht : Value.IsInline text.toList) (heol : Scanner.EndsLine eol.toList closing)
    (hlast : closing.kind = .eof →
      ∀ x ∈ (Scanner.onLine text.toList).tokensLeft.getLast?, x.kind ≠ .lparen) :
    ofSource options false files name ("#define " ++ key ++ " " ++ (text ++ eol)) =
      .ok ⟨⟨#[], #[⟨.define ⟨Text.uppercase key, .ofText text⟩, 1, none⟩], []⟩, #[],
        #[(files.resolve name).key]⟩ := by
  have hhead := Scanner.leads_define hkey (text ++ eol)
  obtain ⟨⟨hkind, -⟩, -, hrest⟩ := hhead.announces
  have hstands := hhead.stands
  rw [String.toList_append] at hstands
  have hmask := Scanner.mask_ahead (.ofString ("#define " ++ key ++ " " ++ (text ++ eol))) 3
  have hline := Scanner.leads_byLine hmask hstands ht heol
  have hbelow := hline.stands.withMask (congrArg SkipMask.blanks (hmask : _ = SkipMask.all))
  have hskips := hrest.skipsBlanks.trans hline.announces.skipsBlanks
  rw [List.length_append, List.length_map, List.length_singleton] at hbelow hskips
  obtain ⟨⟨heof, -⟩, hend, -⟩ := (Scanner.Leads.eof hbelow).announces
  exact ofSource_eq_single options files name (Scanner.read?_define key (text ++ eol))
    (ne_of_eq_of_ne hkind (by decide)) nofun
    (recognize_define hhead.announces hline.announces ht.goes_on heol.ends_value hlast)
    hskips hend heof

/-- **An enum member is the define that is written by hand.**  For any text that is one value the
enum `enum { KEY = text };` and the line `#define KEY text` are read without warnings, and they
lower to the same tree, in which there is one define with the key and the value of the text without
casts.  The line may end with any line break, and also with the input unless its last token is an
opening parenthesis. -/
theorem lower_member_eq_lower_define (d : Dialect) (hkey : IsName key)
    (hupper : Text.uppercase key = key) (ht : Value.IsInline text.toList) :
    ∃ member define : Document,
      ofSource options false files name ("enum \x7b " ++ key ++ " = " ++ text ++ " \x7d;") =
        .ok member ∧
      (∀ b : LineBreak, ofSource options false files name
        ("#define " ++ key ++ " " ++ text ++ String.ofList b.spelling) = .ok define) ∧
      ((∀ x ∈ (Scanner.onLine text.toList).tokensLeft.getLast?, x.kind ≠ .lparen) →
        ofSource options false files name ("#define " ++ key ++ " " ++ text) = .ok define) ∧
      member.tree.lower d = define.tree.lower d ∧
      define.tree.lower d =
        ⟨#[], #[⟨.define ⟨key, (Value.ofText text).stripCasts d⟩, 1, none⟩], []⟩ := by
  refine ⟨_, ⟨⟨#[], #[⟨.define ⟨key, .ofText text⟩, 1, none⟩], []⟩, #[],
    #[(files.resolve name).key]⟩, ofSource_member options files name hkey ht, fun b => ?_,
    fun hlast => ?_, rfl, rfl⟩
  · have heol : Scanner.EndsLine (String.ofList b.spelling).toList b.sign := by
      rw [String.toList_ofList]
      exact Scanner.endsLine_spelling b
    have hdefine := ofSource_define options files name hkey ht heol nofun
    rwa [hupper, ← String.append_assoc] at hdefine
  · have heol : Scanner.EndsLine "".toList ⟨.eof, some ""⟩ := Scanner.endsLine_nil
    have hdefine := ofSource_define options files name hkey ht heol fun _ => hlast
    rwa [hupper, ← String.append_assoc, String.append_empty] at hdefine

/-- A text that opens a brace and two parentheses, holds two casts and a string over two lines. -/
theorem lower_member_eq_lower_define_open :
    IsName "LIMIT" ∧ Text.uppercase "LIMIT" = "LIMIT" ∧
      Value.IsInline "(fixed) x + \"a\nb\" \x7b ((int) 2".toList ∧
      ∃ member define : Document,
        ofSource .standard false (.ofList []) "a.acs"
          "enum \x7b LIMIT = (fixed) x + \"a\nb\" \x7b ((int) 2 \x7d;" = .ok member ∧
        ofSource .standard false (.ofList []) "a.acs"
          "#define LIMIT (fixed) x + \"a\nb\" \x7b ((int) 2\r" = .ok define ∧
        member.tree.lower .standard = define.tree.lower .standard ∧
        define.tree.lower .standard = ⟨#[], #[⟨.define ⟨"LIMIT",
          ⟨[.leaf .symbol "x", .leaf .symbol "+", .leaf .string "a\nb", .leaf .lbrace "\x7b",
            .group [.leaf .number "2"]]⟩⟩, 1, none⟩], []⟩ := by
  have hname : IsName "LIMIT" := ⟨.of_check (by decide), by decide⟩
  have hupper : Text.uppercase "LIMIT" = "LIMIT" := by decide +kernel
  have ht : Value.IsInline "(fixed) x + \"a\nb\" \x7b ((int) 2".toList :=
    ⟨by decide +kernel, by decide +kernel, by decide +kernel, by decide +kernel⟩
  have hvalue : (Value.ofText "(fixed) x + \"a\nb\" \x7b ((int) 2").stripCasts .standard =
      ⟨[.leaf .symbol "x", .leaf .symbol "+", .leaf .string "a\nb", .leaf .lbrace "\x7b",
        .group [.leaf .number "2"]]⟩ := by
    decide +kernel
  obtain ⟨member, define, hmember, hdefine, -, hsame, hlower⟩ :=
    lower_member_eq_lower_define .standard (.ofList []) "a.acs" .standard hname hupper ht
  exact ⟨hname, hupper, ht, member, define, hmember, hdefine .ret, hsame, hvalue ▸ hlower⟩

end Document

end AcsOutline
