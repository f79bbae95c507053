import AcsOutline.Proofs.Session.Moved
import AcsOutline.Proofs.Session.Rounds

/-!
# Two runs in lockstep

A run that reads a whole source and one that reads a part of it go round for round together: the
outermost file is the source in one and the part in the other, and the files that they include are
the same (`Run.Beside`).  Where text follows the part, they do so as long as the run that reads
everything stays inside of it (`Run.Inside`); where nothing follows, they do so to the end
(`Run.matches_complete`).
-/

namespace AcsOutline

variable {file : String} {m k : Shift}

/-! ## What stays inside -/

/-- The outermost file is not read beyond the part. -/
def Run.Inside (m : Shift) (r : Run) : Prop :=
  m.after = [] ∨ ∃ g, r.files.getLast? = some g ∧ m.after <:+ g.scanner.rest

/-- A round ends inside the part; a failure counts only where nothing follows the part. -/
def Step.Inside (m : Shift) : Step → Prop
  | .finished _ => True
  | .failed _ _ => m.after = []
  | .reading r => r.Inside m

/-- A declaration ends inside the part. -/
def Stage.Inside (m : Shift) : Stage → Prop
  | .over s => s.Inside m
  | .wanting _ r => r.Inside m

/-- Where nothing follows the part, every declaration ends inside it. -/
theorem Stage.inside_of_after_nil (hafter : m.after = []) (s : Stage) : s.Inside m := by
  rcases s with (s | ⟨f, s⟩ | r) | ⟨q, r⟩
  · trivial
  · exact hafter
  · exact Or.inl hafter
  · exact Or.inl hafter

/-! ## What is the same -/

/-- The same place of one file: `k` says what is read of it, and `m` cuts the part out of
`file`. -/
structure OpenFile.Beside (file : String) (m k : Shift) (f f' : OpenFile) : Prop where
  name_eq : f.name = f'.name
  directory_eq : f.directory = f'.directory
  source_eq : f.source.toList = k.before ++ f'.source.toList ++ k.after
  scanner : Scanner.Alongside k f.scanner f'.scanner
  place : m.Places file f'.name k

/-- Files that are read inside each other: the outermost one is the source or the part, and the
others are read as a whole. -/
inductive OpenFile.Stacked (file : String) (m : Shift) : List OpenFile → List OpenFile → Prop where
  | outermost {f f' : OpenFile} (h : f.Beside file m m f') : Stacked file m [f] [f']
  | inner {f f' : OpenFile} {outer outer' : List OpenFile} {k : Shift} (h : f.Beside file m k f')
    (hwhole : k.IsWhole) (houter : Stacked file m outer outer') :
    Stacked file m (f :: outer) (f' :: outer')

/-- How the innermost of `n` files is read: if it is the only one, `k` cuts the part out of it. -/
structure Shift.Innermost (m k : Shift) (n : Nat) : Prop where
  of_alone : n = 1 → k = m
  of_included : n ≠ 1 → k.IsWhole

/-- Files that are all read, or read inside each other. -/
def OpenFile.AllBeside (file : String) (m : Shift) (fs fs' : List OpenFile) : Prop :=
  (fs = [] ∧ fs' = []) ∨ Stacked file m fs fs'

/-- Two runs at the same place. -/
structure Run.Beside (file : String) (m : Shift) (r r' : Run) : Prop where
  session : r.session.Moved file m.move r'.session
  files : OpenFile.AllBeside file m r.files r'.files

/-- Two requests for the same file, from includes in a file that is read as `k` says. -/
structure Request.Moved (file : String) (m k : Shift) (q q' : Request) : Prop where
  location_eq : q.location = q'.location
  path_eq : q.path = q'.path
  site : ∃ i i', q.site = some i ∧ q'.site = some i' ∧ i.Moved file m k i'

/-- Two rounds that come to the same, where the innermost file is read as `k` says. -/
inductive Step.Matches (file : String) (m k : Shift) : Step → Step → Prop where
  | finished {s s' : Session} (hs : s.Moved file m.move s') :
    Matches file m k (.finished s) (.finished s')
  | failed {f f' : Failure} {s s' : Session} (hf : f.Moved file m k f')
    (hs : s.Moved file m.move s') : Matches file m k (.failed f s) (.failed f' s')
  | reading {r r' : Run} (hr : r.Beside file m r') : Matches file m k (.reading r) (.reading r')

/-- Two declarations that come to the same, where the innermost file is read as `k` says. -/
inductive Stage.Matches (file : String) (m k : Shift) : Stage → Stage → Prop where
  | over {s s' : Step} (hs : s.Matches file m k s') : Matches file m k (.over s) (.over s')
  | wanting {q q' : Request} {r r' : Run} (hq : q.Moved file m k q') (hr : r.Beside file m r') :
    Matches file m k (.wanting q r) (.wanting q' r')

/-- The files around one that is read as `k` says. -/
structure OpenFile.Frames (file : String) (m k : Shift) (outer outer' : List OpenFile) : Prop where
  stacked : ∀ {g g'}, g.Beside file m k g' → Stacked file m (g :: outer) (g' :: outer')
  around : AllBeside file m outer outer'
  inside : ∀ {s g}, Run.Inside m ⟨s, g :: outer⟩ → k.after <:+ g.scanner.rest
  left : ∀ {s}, Run.Inside m ⟨s, outer⟩ → k.after = []
  after : m.after = [] → k.after = []
  innermost : m.Innermost k (outer'.length + 1)

namespace OpenFile

theorem Stacked.ne_nil {fs fs' : List OpenFile} (h : Stacked file m fs fs') :
    fs ≠ [] ∧ fs' ≠ [] := by
  cases h <;> exact ⟨List.cons_ne_nil _ _, List.cons_ne_nil _ _⟩

theorem Stacked.frames {f f' : OpenFile} {outer outer' : List OpenFile}
    (h : Stacked file m (f :: outer) (f' :: outer')) :
    ∃ k, f.Beside file m k f' ∧ Frames file m k outer outer' := by
  cases h with
  | outermost h =>
    refine ⟨m, h, .outermost, Or.inl ⟨rfl, rfl⟩, ?_, ?_, id, ⟨fun _ => rfl, ?_⟩⟩
    · rintro s g (hafter | ⟨_, ⟨⟩, hg⟩)
      · rw [hafter]
        exact List.nil_suffix
      · exact hg
    · rintro s (hafter | ⟨_, ⟨⟩, -⟩)
      exact hafter
    · exact fun hne => absurd rfl hne
  | inner h hwhole houter =>
    refine ⟨_, h, (.inner · hwhole houter), Or.inr houter, ?_, fun _ => hwhole.after_eq,
      fun _ => hwhole.after_eq, ⟨fun hone => ?_, fun _ => hwhole⟩⟩
    · intro s g _
      rw [hwhole.after_eq]
      exact List.nil_suffix
    · exact absurd (List.length_eq_zero_iff.1 (Nat.succ.inj hone)) houter.ne_nil.2

/-- A declaration that ends inside the part was begun there. -/
theorem Frames.inside_of_turns {outer outer' : List OpenFile} (h : Frames file m k outer outer')
    {session : Session} {g : OpenFile} {stage : Stage} (hturns : stage.Turns session g outer)
    (hin : stage.Inside m) : k.after <:+ g.scanner.rest := by
  have hnil : k.after = [] → k.after <:+ g.scanner.rest := by
    intro hafter
    rw [hafter]
    exact List.nil_suffix
  cases hturns with
  | left hs => exact hnil (h.left hin)
  | read hs hg =>
    obtain ⟨u, hu, rfl⟩ := hg
    exact (h.inside hin).trans hu.rest_suffix
  | failed failure s => exact hnil (h.after hin)
  | wanting q hs hg =>
    obtain ⟨u, hu, rfl⟩ := hg
    exact (h.inside hin).trans hu.rest_suffix

theorem Beside.withScanner {f f' : OpenFile} (h : f.Beside file m k f') {u v : Scanner}
    (huv : u.Alongside k v) : Beside file m k { f with scanner := u } { f' with scanner := v } :=
  { h with scanner := huv }

/-- A fault is the same failure in both. -/
theorem Beside.failure {f f' : OpenFile} (h : f.Beside file m k f') {fault fault' : Fault}
    (hfault : fault.Moved k fault') (line : Nat) (form : Option Form) :
    (f.failure fault (line + k.move.lines) form).Moved file m k (f'.failure fault' line form) := by
  have hsource : f.source = String.ofList (k.before ++ f'.source.toList ++ k.after) := by
    rw [← h.source_eq, String.ofList_toList]
  refine ⟨?_, h.place⟩
  rw [OpenFile.failure, OpenFile.failure, hfault, Fault.diagnostic_move, hsource, h.name_eq]
  rfl

end OpenFile

/-- The same trivia stands between two places. -/
theorem Scanner.Alongside.triviaSince {s t s₀ t₀ : Scanner} (h : s.Alongside k t)
    (h₀ : s₀.Alongside k t₀) :
    s.triviaSince s₀.triviaCount = (t.triviaSince t₀.triviaCount).map (Trivia.move k.move) := by
  have hcount : s.skipped.length - s₀.triviaCount = t.skipped.length - t₀.triviaCount := by
    rw [triviaCount, triviaCount, h.skipped_eq, h₀.skipped_eq, List.length_append,
      List.length_append, List.length_map, List.length_map]
    omega
  have hle : t.skipped.length - t₀.triviaCount ≤ (t.skipped.map (Trivia.move k.move)).length := by
    rw [List.length_map]
    exact Nat.sub_le _ _
  rw [Scanner.triviaSince, Scanner.triviaSince, hcount, h.skipped_eq,
    List.take_append_of_le_length hle, ← List.map_take, List.map_reverse]

namespace Run

variable {resolve : String → Location} {session session' : Session} {f f' g g' : OpenFile}
  {outer outer' : List OpenFile} {r r' : Run}

/-! ## One declaration -/

theorem matches_follow (hs : session.Moved file m.move session') (hg : g.Beside file m k g')
    (hframes : OpenFile.Frames file m k outer outer') (path : String) {site site' : IncludeSite}
    (hsite : site.Moved file m k site') :
    (follow resolve path site session g outer).Matches file m k
      (follow resolve path site' session' g' outer') := by
  have hrun : Run.Beside file m ⟨session, g :: outer⟩ ⟨session', g' :: outer'⟩ :=
    ⟨hs, Or.inr (hframes.stacked hg)⟩
  have htarget : includeTarget g path = includeTarget g' path := by
    rw [includeTarget, includeTarget, hg.directory_eq]
  unfold follow
  rw [hs.options_eq]
  split
  · exact .over (.reading hrun)
  · unfold Session.request
    rw [hs.isCancelled_eq, hs.visited_eq, htarget]
    split
    next e =>
      split at e
      · cases e
        rw [if_pos ‹_›]
        exact .over (.failed (moved_failureOf hsite _ rfl) hs)
      · split at e
        · cases e
          rw [if_neg ‹_›, if_pos ‹_›]
          exact .over (.failed (moved_failureOf hsite _ rfl) hs)
        · cases e
    next e =>
      split at e
      · cases e
      · split at e
        · cases e
        · cases e
          rw [if_neg ‹_›, if_neg ‹_›]
          exact .wanting ⟨rfl, rfl, _, _, rfl, rfl, hsite⟩ hrun

theorem matches_declare (hs : session.Moved file m.move session') (hg : g.Beside file m k g')
    (hread : g.scanner.Mirrors k g'.scanner) (hframes : OpenFile.Frames file m k outer outer')
    (declaration : Option Declaration) {first first' : Scanner} (hfirst : first.Mirrors k first') :
    (declare resolve declaration first session g outer).Matches file m k
      (declare resolve declaration first' session' g' outer') := by
  have htrivia := hread.toAlongside.triviaSince hfirst.toAlongside
  have hline : first.token.line = first'.token.line + k.move.lines :=
    congrArg Token.line hfirst.token_eq
  unfold declare
  dsimp only
  rw [htrivia, hg.name_eq]
  cases declaration with
  | none =>
    exact .over (.reading ⟨hs.harvest hg.place _ none, Or.inr (hframes.stacked hg)⟩)
  | some d =>
    have hadded := (hs.addDeclaration hg.place d first'.token.line).harvest hg.place
      (g'.scanner.triviaSince first'.triviaCount) (some d.label)
    rw [← hline] at hadded
    dsimp only
    split
    next path =>
      have hsite : IncludeSite.Moved file m k
          ⟨g'.name, first.token.line, first.token.span.union g.scanner.token.span, g.source⟩
          ⟨g'.name, first'.token.line, first'.token.span.union g'.scanner.token.span,
            g'.source⟩ := by
        refine ⟨?_, hg.place⟩
        rw [IncludeSite.move, Span.move_union, ← hg.source_eq, String.ofList_toList, hline,
          hfirst.token_eq, hread.token_eq]
        rfl
      exact matches_follow hadded hg hframes path hsite
    · exact .over (.reading ⟨hadded, Or.inr (hframes.stacked hg)⟩)

theorem matches_readDeclaration (hs : session.Moved file m.move session')
    (hf : f.Beside file m k f') (hframes : OpenFile.Frames file m k outer outer')
    {first first' : Scanner} (hfirst : first.Mirrors k first')
    (hin : (readDeclaration resolve first session f outer).Inside m) :
    (readDeclaration resolve first session f outer).Matches file m k
      (readDeclaration resolve first' session' f' outer') := by
  have hdesk : Desk.Beside file m.move k ⟨first, session.builder⟩ ⟨first', session'.builder⟩ :=
    ⟨hfirst, hs.builder⟩
  have hrecognize := relates_recognize hdesk
  unfold readDeclaration at hin ⊢
  cases e : recognize ⟨first, session.builder⟩ with
  | error rejection desk =>
    rw [e] at hrecognize hin
    obtain ⟨rejection', desk', hq, ⟨hform, hfault⟩, hdesk'⟩ := hrecognize (hframes.after hin)
    have hline : desk.scanner.token.line = desk'.scanner.token.line + k.move.lines :=
      congrArg Token.line hdesk'.scanner.token_eq
    rw [hq]
    dsimp only
    rw [hline, hform]
    exact .over (.failed (hf.failure hfault _ _) (hs.withBuilder hdesk'.builder))
  | ok declaration desk =>
    rw [e] at hrecognize hin
    have hturns := turns_declare resolve outer declaration first
      (.refl { session with builder := desk.builder })
      (OpenFile.ReadsOn.refl { f with scanner := desk.scanner })
    obtain ⟨desk', hq, hdesk'⟩ := hrecognize (hframes.inside_of_turns hturns hin)
    rw [hq]
    exact matches_declare (hs.withBuilder hdesk'.builder)
      (hf.withScanner hdesk'.scanner.toAlongside) hdesk'.scanner hframes declaration hfirst

theorem matches_readFile (hs : session.Moved file m.move session') (hf : f.Beside file m k f')
    (hframes : OpenFile.Frames file m k outer outer')
    (hin : (readFile resolve session f outer).Inside m) :
    (readFile resolve session f outer).Matches file m k
      (readFile resolve session' f' outer') := by
  -- the first token lies in the part, whether it ends the file or starts a declaration
  have hrest : k.after <:+ f.scanner.next.rest := by
    by_cases heof : f.scanner.next.token.kind = .eof
    · rw [readFile_of_eof heof] at hin
      rw [hframes.left hin]
      exact List.nil_suffix
    · exact hframes.inside_of_turns (g := { f with scanner := f.scanner.next })
        (turns_readFile_next resolve session outer heof) hin
  have hfirst := hf.scanner.next hrest
  have hline : f.scanner.next.token.line = f'.scanner.next.token.line + k.move.lines :=
    congrArg Token.line hfirst.token_eq
  have htrivia := hfirst.toAlongside.triviaSince hf.scanner
  have hharvest := hs.harvest hf.place (f'.scanner.next.triviaSince f'.scanner.triviaCount) none
  have hdoc := hharvest.takeDoc hf.place f'.scanner.next.token.line
    (f'.scanner.next.triviaSince f'.scanner.triviaCount)
  unfold readFile at hin ⊢
  dsimp only at hin ⊢
  rw [hf.name_eq, htrivia, hline] at hin ⊢
  by_cases heof : f.scanner.next.token.kind = .eof
  · rw [if_pos heof, if_pos (hfirst.kind_eq ▸ heof)]
    exact .over (.reading ⟨hharvest, hframes.around⟩)
  rw [if_neg heof] at hin ⊢
  rw [if_neg (hfirst.kind_eq ▸ heof)]
  generalize Session.takeDoc _ f'.name _ (List.map _ _) = taken at hdoc hin ⊢
  generalize Session.takeDoc _ f'.name _ _ = taken' at hdoc ⊢
  obtain ⟨result, session₁⟩ := taken
  obtain ⟨result', session₁'⟩ := taken'
  obtain ⟨rfl, hmoved⟩ := hdoc
  cases result' with
  | error fault => exact .over (.failed (hf.failure rfl _ _) hmoved)
  | ok _ => exact matches_readDeclaration hmoved hf hframes hfirst hin

/-- **Two runs read the same declaration**, if it ends inside the part. -/
theorem matches_advance (resolve : String → Location) (h : r.Beside file m r')
    (hin : (r.advance resolve).Inside m) :
    ∃ k, m.Innermost k r'.files.length ∧
      (r.advance resolve).Matches file m k (r'.advance resolve) := by
  obtain ⟨session, files⟩ := r
  obtain ⟨session', files'⟩ := r'
  obtain ⟨hs, ⟨rfl, rfl⟩ | hstacked⟩ := h
  · exact ⟨.whole [] 0 [], ⟨nofun, fun _ => Shift.isWhole_whole _ _ _⟩, .over (.finished hs)⟩
  cases files with
  | nil => exact absurd rfl hstacked.ne_nil.1
  | cons f outer =>
    cases files' with
    | nil => cases hstacked
    | cons f' outer' =>
      obtain ⟨k, hf, hframes⟩ := hstacked.frames
      refine ⟨k, hframes.innermost, ?_⟩
      unfold advance at hin ⊢
      dsimp only at hin ⊢ hs
      rw [hs.isCancelled_eq] at hin ⊢
      cases hcancelled : session'.isCancelled with
      | true =>
        rw [if_pos rfl, if_pos rfl, hf.scanner.line_eq]
        have hfault : Fault.Moved k .cancelled .cancelled := rfl
        exact .over (.failed (hf.failure hfault _ none) hs)
      | false =>
        rw [hcancelled, if_neg Bool.false_ne_true] at hin
        rw [if_neg Bool.false_ne_true, if_neg Bool.false_ne_true]
        exact matches_readFile hs hf hframes hin

/-! ## One round -/

/-- An included file is read as a whole. -/
theorem beside_openFile {q q' : Request} (hq : q.Moved file m k q') (text : String) :
    (q.openFile text).Beside file m (.whole text.toList 0 []) (q'.openFile text) := by
  have hcounted := Scanner.counted_ofList text.toList
  refine ⟨?_, ?_, ?_, ?_, Or.inl (Shift.isWhole_whole _ _ _)⟩
  · rw [Request.openFile, Request.openFile, hq.location_eq, hq.path_eq]
  · rw [Request.openFile, Request.openFile, hq.location_eq]
    rfl
  · exact (List.append_nil _).symm
  · exact
      { whole_eq := (List.append_nil _).symm
        part_eq := rfl
        rest_eq := (List.append_nil _).symm
        position_eq := rfl
        line_eq := rfl
        braces_eq := rfl
        whole_mask := rfl
        part_mask := rfl
        skipped_eq := rfl
        counted := hcounted }

/-- What is found for an include is the same in both runs. -/
theorem matches_answer {q q' : Request} (hq : q.Moved file m k q') (hr : r.Beside file m r')
    (hfiles : r.files ≠ []) (found : Finding) :
    (q.answer found r).Matches file m k (q'.answer found r') := by
  have hstacked := hr.files.resolve_left (hfiles ·.1)
  have hsession : Session.Moved file m.move
      (if found.cancels then r.session.cancel else r.session)
      (if found.cancels then r'.session.cancel else r'.session) := by
    split
    · exact hr.session.cancel
    · exact hr.session
  unfold Request.answer
  dsimp only
  split
  next fault _ =>
    have hfault : q.faultOf fault = q'.faultOf fault := by
      cases fault <;> simp only [Request.faultOf, hq.location_eq]
    have hlabels : (q'.faultOf fault).labels = [] := by cases fault <;> rfl
    obtain ⟨i, i', hi, hi', hsite⟩ := hq.site
    rw [hfault, hq.path_eq, hi, hi']
    exact .failed (moved_failureOf hsite _ hlabels) hsession
  next text _ =>
    have hopen := beside_openFile hq text
    rw [hq.location_eq]
    exact .reading
      ⟨hsession.visit _, Or.inr (.inner hopen (Shift.isWhole_whole _ _ _) hstacked)⟩

/-- **Two runs take the same round**, if it ends inside the part. -/
theorem matches_step {files : SourceFiles} (h : r.Beside file m r')
    (hin : (r.step files).Inside m) :
    ∃ k, m.Innermost k r'.files.length ∧ (r.step files).Matches file m k (r'.step files) := by
  unfold step at hin ⊢
  rcases e : r.advance files.resolve with s | ⟨q, r₁⟩
  · rw [e] at hin
    obtain ⟨k, hk, hmatches⟩ := matches_advance files.resolve h (e ▸ hin)
    rw [e] at hmatches
    cases e' : r'.advance files.resolve <;> rw [e'] at hmatches <;> cases hmatches
    exact ⟨k, hk, ‹_›⟩
  · rw [e] at hin
    dsimp only at hin
    obtain ⟨f, outer, -, -, hturns⟩ := turns_advance files.resolve (r := r)
      (fun _ e' => by rw [e] at e'; cases e') (fun _ _ e' => by rw [e] at e'; cases e')
    have hfiles : r₁.files ≠ [] := by
      rw [e] at hturns
      cases hturns
      exact List.cons_ne_nil _ _
    have hinside : r₁.Inside m := by
      unfold Request.answer at hin
      dsimp only at hin
      split at hin
      · exact Or.inl hin
      · rcases hin with hafter | ⟨g, hlast, hg⟩
        · exact Or.inl hafter
        · dsimp only at hlast
          rw [List.getLast?_cons_of_ne_nil hfiles] at hlast
          exact Or.inr ⟨g, hlast, hg⟩
    obtain ⟨k, hk, hmatches⟩ := matches_advance files.resolve h (e ▸ hinside)
    rw [e] at hmatches
    cases e' : r'.advance files.resolve <;> rw [e'] at hmatches <;> cases hmatches
    next hq hr =>
      dsimp only
      rw [← hq.location_eq]
      exact ⟨k, hk, matches_answer hq hr hfiles _⟩

section Rounds

variable {files : SourceFiles} (h : r.Beside file m r') {s : Session}

include h

/-- A run that goes on inside the part goes on in both. -/
theorem Beside.step_reading {r₁ : Run} (hstep : r.step files = .reading r₁) (hin : r₁.Inside m) :
    ∃ r₁', r'.step files = .reading r₁' ∧ r₁.Beside file m r₁' := by
  obtain ⟨k, -, hmatches⟩ := matches_step h (show (r.step files).Inside m from hstep ▸ hin)
  rw [hstep] at hmatches
  cases e : r'.step files <;> rw [e] at hmatches <;> cases hmatches
  exact ⟨_, rfl, ‹_›⟩

/-- A run that is finished is finished in both. -/
theorem Beside.step_finished (hstep : r.step files = .finished s) :
    ∃ s', r'.step files = .finished s' ∧ s.Moved file m.move s' := by
  obtain ⟨k, -, hmatches⟩ := matches_step h (show (r.step files).Inside m from hstep ▸ trivial)
  rw [hstep] at hmatches
  cases e : r'.step files <;> rw [e] at hmatches <;> cases hmatches
  exact ⟨_, rfl, ‹_›⟩

/-- A run that fails where nothing follows the part fails in both. -/
theorem Beside.step_failed {f : Failure} (hstep : r.step files = .failed f s)
    (hafter : m.after = []) :
    ∃ k f' s', m.Innermost k r'.files.length ∧ r'.step files = .failed f' s' ∧
      f.Moved file m k f' ∧ s.Moved file m.move s' := by
  obtain ⟨k, hk, hmatches⟩ := matches_step h (show (r.step files).Inside m from hstep ▸ hafter)
  rw [hstep] at hmatches
  cases e : r'.step files <;> rw [e] at hmatches <;> cases hmatches
  exact ⟨k, _, _, hk, rfl, ‹_›, ‹_›⟩

end Rounds

/-! ## The whole run -/

/-- What ends inside the part was inside of it some rounds before. -/
theorem inside_of_rounds {files : SourceFiles} {n : Nat} {q : Run} (h : rounds files n r = some q)
    (hin : q.Inside m) : r.Inside m := by
  rcases hin with hafter | ⟨g, hlast, hg⟩
  · exact Or.inl hafter
  · obtain ⟨g', hlast', u, hu, rfl⟩ := outermost_rounds h hlast
    exact Or.inr ⟨g', hlast', hg.trans hu.rest_suffix⟩

/-- **Two runs stay at the same place** over some rounds, if these end inside the part. -/
theorem beside_rounds {files : SourceFiles} {n : Nat} {q : Run} (h : r.Beside file m r')
    (hrounds : rounds files n r = some q) (hin : q.Inside m) :
    ∃ q', rounds files n r' = some q' ∧ q.Beside file m q' := by
  induction n generalizing r r' with
  | zero =>
    cases hrounds
    exact ⟨r', rfl, h⟩
  | succ n ih =>
    obtain ⟨r₁, hstep, hrounds⟩ := rounds_succ_eq_some.1 hrounds
    obtain ⟨r₁', hstep', hr₁⟩ := h.step_reading hstep (inside_of_rounds hrounds hin)
    obtain ⟨q', hrounds', hq'⟩ := ih hr₁ hrounds
    exact ⟨q', rounds_succ_eq_some.2 ⟨r₁', hstep', hrounds'⟩, hq'⟩

/-- **Two runs come to the same end** where nothing follows the part. -/
theorem matches_complete (files : SourceFiles) (hafter : m.after = []) (h : r.Beside file m r') :
    Option.Rel (fun f f' => ∃ k, (k = m ∨ k.IsWhole) ∧ f.Moved file m k f')
        (r.complete files).1 (r'.complete files).1 ∧
      (r.complete files).2.Moved file m.move (r'.complete files).2 := by
  fun_induction complete files r generalizing r' with
  | case1 r s hstep =>
    obtain ⟨s', hstep', hs⟩ := h.step_finished hstep
    rw [complete_eq, hstep']
    exact ⟨.none, hs⟩
  | case2 r f s hstep =>
    obtain ⟨k, f', s', hk, hstep', hf, hs⟩ := h.step_failed hstep hafter
    have hplace : k = m ∨ k.IsWhole := by
      by_cases hlength : r'.files.length = 1
      · exact Or.inl (hk.of_alone hlength)
      · exact Or.inr (hk.of_included hlength)
    rw [complete_eq, hstep']
    exact ⟨.some ⟨k, hplace, hf⟩, hs⟩
  | case3 r r₁ hstep ih =>
    obtain ⟨r₁', hstep', hr₁⟩ := h.step_reading hstep (Or.inl hafter)
    rw [complete_eq files r', hstep']
    exact ih hr₁

end Run

end AcsOutline
