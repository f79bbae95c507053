import AcsOutline.Proofs.Grammar.Recognition
import AcsOutline.Proofs.Printing.Recognition
import AcsOutline.Proofs.Scanner.Tiling
import AcsOutline.Proofs.Session.Rounds

/-!
# Reading line by line

A run reads one line of a printed tree in each round.  `Run.Reads` says that a run goes on from one
text to another that stands below it and what is built on the way; it holds of the three sorts of
lines, and of texts that stand one below the other.

The trivia before a line is blank.  Within a line there may be comments in the initialiser of an
array, and these become task notes.
-/

namespace AcsOutline

open Printing

/-! ## The trivia of a round -/

namespace Scanner

variable {s t : Scanner}

theorem SkipsBlanks.isComment_eq (h : s.SkipsBlanks t) :
    ∀ x ∈ t.triviaSince s.triviaCount, x.kind.isComment = false := by
  obtain ⟨later, hskipped, hlater⟩ := h
  have htrivia : t.trivia = s.trivia ++ later.reverse := by
    rw [trivia, trivia, hskipped, List.reverse_append]
  rw [triviaSince_triviaCount htrivia]
  exact fun x hx => hlater x (List.mem_reverse.1 hx)

/-- The comments that were passed since a scanner was at a place. -/
theorem lineComments_triviaSince (h : s.skipped <:+ t.skipped) {rs : List String}
    (hcomments : t.comments = s.comments ++ rs) :
    Trivia.lineComments (t.triviaSince s.triviaCount) = rs := by
  obtain ⟨later, hskipped⟩ := h
  have htrivia : t.trivia = s.trivia ++ later.reverse := by
    rw [trivia, trivia, ← hskipped, List.reverse_append]
  rw [triviaSince_triviaCount htrivia]
  rw [comments, htrivia, Trivia.lineComments_append] at hcomments
  exact List.append_cancel_left hcomments

/-- What is recognized only adds to the trivia before it, since a scanner that starts with the line
recognizes the same. -/
theorem Below.skipped_suffix {w text : String} {kind : TokenKind} {ws : List String}
    {b : List Char} {rs : List String} (h : s.Below (page (w :: ws) b) rs) (hw : Spells w kind text)
    {declaration : Option Declaration} {builder left : Builder}
    (hrecognize : recognize ⟨s.next, builder⟩ = .ok declaration ⟨t, left⟩) :
    s.next.skipped <:+ t.skipped := by
  have hpage : Trivia.read? s.mask (page (w :: ws) b) = none := by
    rw [page_cons]
    exact Trivia.read?_of_all (hw.no_trivia _ (stops_page w ws b)) _
  obtain ⟨before, -, hmirrors⟩ := h.faces.mirrors h.mask_eq hpage
  have hdesk : Desk.Beside "" (.over []) _ ⟨s.next, builder⟩ ⟨(ofList (page (w :: ws) b)).next, builder⟩ :=
    ⟨hmirrors 0, .refl builder⟩
  have hrelates := relates_recognize hdesk
  rw [hrecognize] at hrelates
  obtain ⟨d, -, hbeside⟩ := hrelates List.nil_suffix
  exact ⟨_, hbeside.scanner.skipped_eq.symm⟩

end Scanner

/-! ## Task notes -/

/-- A task note without its line. -/
def TaskNote.unlined (n : TaskNote) : TaskNote :=
  { n with line := 0 }

/-- The task notes among the line comments in a declaration, without their lines. -/
def TaskNote.ofComments (tags : List String) (file : String) (subject : Option String)
    (comments : List String) : List TaskNote :=
  comments.filterMap fun comment =>
    (ofComment? tags comment).map fun (tag, text) => ⟨tag, text, file, 0, subject⟩

/-- Adds task notes to the open level. -/
def Builder.pushNotes (b : Builder) (notes : List TaskNote) : Builder :=
  notes.foldl pushNote b

theorem Builder.pushNotes_eq (b : Builder) (notes : List TaskNote) :
    b.pushNotes notes = ⟨{ b.here with notes := b.here.notes ++ notes.toArray }, b.above⟩ := by
  induction notes generalizing b with
  | nil =>
    obtain ⟨⟨_, _, _⟩, _⟩ := b
    rw [Array.append_empty]
    rfl
  | cons n notes ih =>
    rw [pushNotes, List.foldl_cons]
    refine (ih (b.pushNote n)).trans ?_
    simp [pushNote, Tree.pushNote]

namespace Session

variable (s : Session) (file : String) {trivia : List Trivia} (subject : Option String)

/-- What is harvested from some trivia are the task notes among its line comments. -/
theorem exists_harvest (trivia : List Trivia) :
    ∃ notes, s.harvest file trivia subject = { s with builder := s.builder.pushNotes notes } ∧
      notes.map TaskNote.unlined =
        TaskNote.ofComments s.options.tags file subject (Trivia.lineComments trivia) := by
  induction trivia generalizing s with
  | nil => exact ⟨[], rfl, rfl⟩
  | cons t trivia ih =>
    have hcons : s.harvest file (t :: trivia) subject =
        (harvestComment file subject s t).harvest file trivia subject := rfl
    rw [hcons]
    by_cases hkind : t.kind = .lineComment
    · have hcomments : Trivia.lineComments (t :: trivia) =
          t.text :: Trivia.lineComments trivia := by
        simp [Trivia.lineComments, hkind]
      rw [hcomments, TaskNote.ofComments, List.filterMap_cons, harvestComment, hkind]
      dsimp only
      cases hnote : TaskNote.ofComment? s.options.tags t.text with
      | none => exact ih s
      | some note =>
        obtain ⟨notes, heq, hnotes⟩ :=
          ih { s with builder := s.builder.pushNote ⟨note.1, note.2, file, t.line, subject⟩ }
        exact ⟨⟨note.1, note.2, file, t.line, subject⟩ :: notes, heq, by
          rw [List.map_cons, hnotes]
          rfl⟩
    · have hcomments : Trivia.lineComments (t :: trivia) = Trivia.lineComments trivia := by
        simp [Trivia.lineComments, hkind]
      have hsame : harvestComment file subject s t = s := by
        unfold harvestComment
        split
        next h => exact absurd h hkind
        next => rfl
      rw [hcomments, hsame]
      exact ih s

variable {s file subject}

theorem harvest_eq_self (h : Trivia.lineComments trivia = []) :
    s.harvest file trivia subject = s := by
  obtain ⟨notes, heq, hnotes⟩ := s.exists_harvest file subject trivia
  rw [h] at hnotes
  obtain rfl : notes = [] := List.map_eq_nil_iff.1 hnotes
  exact heq

theorem takeDoc_eq_self (h : ∀ t ∈ trivia, t.kind.isComment = false) (line : Nat) :
    s.takeDoc file line trivia = (.ok (), s) := by
  have hnone : docComments trivia = [] := by
    refine List.filter_eq_nil_iff.2 fun t ht hdoc => ?_
    have hcomment := h t ht
    rw [beq_iff_eq.1 ((Bool.and_eq_true _ _).mp hdoc).1] at hcomment
    cases hcomment
  rw [takeDoc, hnone]
  rfl

theorem visit_start (options : ReadOptions) (key : String) :
    (start options).visit key = { start options with visited := #[key] } := by
  rw [visit, if_neg (by simp [start])]
  rfl

end Session

/-! ## Rounds -/

namespace Run

/-- A run that reads a file in a session, with a tree under construction. -/
def reading (base : Session) (file : OpenFile) (builder : Builder) (scanner : Scanner) : Run :=
  ⟨{ base with builder := builder }, [{ file with scanner := scanner }]⟩

variable {files : SourceFiles} {base : Session} {file : OpenFile} {builder left : Builder}
  {s t : Scanner} {w text : String} {kind : TokenKind} {ws : List String} {b : List Char}
  {rs : List String}

/-- What stands before a declaration says nothing, so that the declaration is read next. -/
theorem advance_of_skipsBlanks {session : Session} {outer : List OpenFile}
    (hgo : session.isCancelled = false) (resolve : String → Location)
    (hnext : file.scanner.SkipsBlanks file.scanner.next)
    (hkind : file.scanner.next.token.kind ≠ .eof) :
    (Run.mk session (file :: outer)).advance resolve =
      readDeclaration resolve file.scanner.next session file outer := by
  have hblank := hnext.isComment_eq
  rw [advance_of_files resolve rfl, if_neg (by simp [hgo]), readFile]
  dsimp only
  rw [Session.harvest_eq_self (Trivia.lineComments_eq_nil hblank), if_neg hkind,
    Session.takeDoc_eq_self hblank]

/-- A round that opens or leaves namespaces. -/
theorem step_of_recognize_none {session : Session} {outer : List OpenFile}
    (hgo : session.isCancelled = false) (hnext : file.scanner.SkipsBlanks file.scanner.next)
    (hkind : file.scanner.next.token.kind ≠ .eof)
    (hrecognize : recognize ⟨file.scanner.next, session.builder⟩ = .ok none ⟨t, left⟩)
    (hcomments : Trivia.lineComments (t.triviaSince file.scanner.next.triviaCount) = []) :
    (Run.mk session (file :: outer)).step files =
      .reading ⟨{ session with builder := left }, { file with scanner := t } :: outer⟩ := by
  rw [step, advance_of_skipsBlanks hgo files.resolve hnext hkind, readDeclaration, hrecognize]
  dsimp only
  rw [declare, Session.harvest_eq_self hcomments]

/-- A line that opens or leaves a namespace. -/
theorem complete_of_recognize_none (hcancelled : base.isCancelled = false)
    (h : s.Below (page (w :: ws) b) rs) (hw : Spells w kind text)
    (hrecognize : recognize ⟨s.next, builder⟩ = .ok none ⟨t, left⟩)
    (hcomments : Trivia.lineComments (t.triviaSince s.next.triviaCount) = []) :
    (reading base file builder s).complete files = (reading base file left t).complete files := by
  obtain ⟨hshows, -, hskips⟩ := h.faces.next_page hw
  have hstep : (reading base file builder s).step files = .reading (reading base file left t) :=
    step_of_recognize_none hcancelled hskips (hshows.kind_ne hw.ne_eof) hrecognize hcomments
  rw [complete_eq, hstep]

theorem declare_some {d : Declaration} (hinclude : ∀ path, d ≠ .includeFile path)
    (resolve : String → Location) (first : Scanner) (session : Session) (file : OpenFile)
    (outer : List OpenFile) :
    declare resolve (some d) first session file outer =
      .over (.reading ⟨(session.addDeclaration d first.token.line).harvest file.name
        (file.scanner.triviaSince first.triviaCount) (some d.label), file :: outer⟩) := by
  cases d with
  | includeFile path => exact absurd rfl (hinclude path)
  | _ => rfl

/-- A round that reads a declaration which is no include. -/
theorem step_of_recognize_some {session : Session} {outer : List OpenFile}
    (hgo : session.isCancelled = false) (hnext : file.scanner.SkipsBlanks file.scanner.next)
    (hkind : file.scanner.next.token.kind ≠ .eof) {d : Declaration}
    (hinclude : ∀ path, d ≠ .includeFile path)
    (hrecognize : recognize ⟨file.scanner.next, session.builder⟩ = .ok (some d) ⟨t, left⟩) :
    (Run.mk session (file :: outer)).step files =
      .reading ⟨({ session with builder := left }.addDeclaration d
        file.scanner.next.token.line).harvest file.name
          (t.triviaSince file.scanner.next.triviaCount) (some d.label),
        { file with scanner := t } :: outer⟩ := by
  rw [step, advance_of_skipsBlanks hgo files.resolve hnext hkind, readDeclaration, hrecognize]
  dsimp only
  rw [declare_some hinclude]

/-- A line with a declaration which is no include. -/
theorem exists_complete_of_recognize (hcancelled : base.isCancelled = false)
    (hdoc : base.pendingDoc = none) (h : s.Below (page (w :: ws) b) rs) (hw : Spells w kind text)
    {d : Declaration} (hinclude : ∀ path, d ≠ .includeFile path)
    (hrecognize : recognize ⟨s.next, builder⟩ = .ok (some d) ⟨t, left⟩) :
    ∃ notes line, notes.map TaskNote.unlined = TaskNote.ofComments base.options.tags file.name
        (some d.label) (Trivia.lineComments (t.triviaSince s.next.triviaCount)) ∧
      (reading base file builder s).complete files =
        (reading base file ((left.pushEntry ⟨d, line, none⟩).pushNotes notes) t).complete
          files := by
  obtain ⟨notes, heq, hnotes⟩ := Session.exists_harvest
    ({ base with builder := left }.addDeclaration d s.next.token.line) file.name (some d.label)
    (t.triviaSince s.next.triviaCount)
  refine ⟨notes, s.next.token.line, hnotes, ?_⟩
  have hstep : (reading base file builder s).step files =
      .reading (reading base file
        ((left.pushEntry ⟨d, s.next.token.line, none⟩).pushNotes notes) t) := by
    obtain ⟨hshows, -, hskips⟩ := h.faces.next_page hw
    have hround := @step_of_recognize_some files { file with scanner := s } left t
      { base with builder := builder } [] hcancelled hskips (hshows.kind_ne hw.ne_eof) d hinclude
      hrecognize
    rw [heq] at hround
    rw [reading, hround, reading, Session.addDeclaration, hdoc]
  rw [complete_eq, hstep]

/-- Behind the last declaration of the last file a run is finished. -/
theorem complete_of_eof {session : Session} (hgo : session.isCancelled = false)
    (hnext : file.scanner.SkipsBlanks file.scanner.next)
    (heof : file.scanner.next.token.kind = .eof) :
    (Run.mk session [file]).complete files = (none, session) := by
  have hstep : (Run.mk session [file]).step files = .reading ⟨session, []⟩ := by
    rw [step, advance_of_files files.resolve rfl, if_neg (by simp [hgo]), readFile_of_eof heof,
      Session.harvest_eq_self (Trivia.lineComments_eq_nil hnext.isComment_eq)]
  rw [complete_eq, hstep]
  dsimp only
  rw [complete_eq]
  rfl

end Run

end AcsOutline
