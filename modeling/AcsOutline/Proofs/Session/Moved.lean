import AcsOutline.Proofs.Grammar.Recognition
import AcsOutline.Session

/-!
# Sessions that read a source and a part of it

A session that reads a whole source and one that reads a part of it find the same, each with its
own lines and offsets (`Session.Moved`, `Failure.Moved`).  What is found in the file that the part
is cut from is moved; what is found in an included file is the same in both, which is the case of
a part that is the whole file (`Shift.Places`).

A failure is moved as the file is that it is found in.  A session does not keep which file its
declarations come from, so `Session.Moved` allows each of them to be moved or not; which ones are
is told by what happens as the part is read (`Run.history_behind`).
-/

namespace AcsOutline

/-! ## Findings that move -/

/-- A label in a part, at its place in the source. -/
def Label.move (m : Move) (l : Label) : Label :=
  { l with span := l.span.move m }

/-- A finding in a part, at its place in the source. -/
def Diagnostic.move (m : Move) (d : Diagnostic) : Diagnostic :=
  { d with labels := d.labels.map (Label.move m) }

/-- A warning about a part, at its place in the source. -/
def Warning.move (m : Move) (w : Warning) : Warning :=
  { w with line := w.line + m.lines, diagnostic := w.diagnostic.move m }

/-- A failure in a part, at its place in the source. -/
def Failure.move (m : Shift) (f : Failure) : Failure where
  diagnostic := f.diagnostic.move m.move
  file := f.file
  line := f.line + m.move.lines
  form := f.form
  source := String.ofList (m.before ++ f.source.toList ++ m.after)

/-- An include in a part, at its place in the source. -/
def IncludeSite.move (m : Shift) (i : IncludeSite) : IncludeSite where
  file := i.file
  line := i.line + m.move.lines
  span := i.span.move m.move
  source := String.ofList (m.before ++ i.source.toList ++ m.after)

/-- `w` and `w'` are the same warning, which is moved if it belongs to the part. -/
def Warning.Moved (file : String) (m : Move) (w w' : Warning) : Prop :=
  w = w' ∨ (w'.file = file ∧ w = w'.move m)

/-- The part is all that the file has. -/
structure Shift.IsWhole (m : Shift) : Prop where
  before_eq : m.before = []
  after_eq : m.after = []

/-- The whole of a source, read by a scanner that starts afresh and by one that comes from
earlier declarations. -/
def Shift.whole (source : List Char) (braces : Int) (skipped : List Trivia) : Shift :=
  ⟨[], source, [], braces, skipped, .all, Or.inl rfl⟩

theorem Shift.isWhole_whole (source : List Char) (braces : Int) (skipped : List Trivia) :
    (whole source braces skipped).IsWhole :=
  ⟨rfl, rfl⟩

/-- How a file of a given name is read: `k` is what is read of it where `m` cuts the part out of
`file`.  A file is read as a whole, or it is the one that the part is cut from. -/
def Shift.Places (file : String) (m : Shift) (name : String) (k : Shift) : Prop :=
  k.IsWhole ∨ (k = m ∧ name = file)

/-- `f` is the failure `f'` of a file that is read as `k` says. -/
structure Failure.Moved (file : String) (m k : Shift) (f f' : Failure) : Prop where
  eq_move : f = f'.move k
  place : m.Places file f'.file k

/-- `i` is the include `i'` in a file that is read as `k` says. -/
structure IncludeSite.Moved (file : String) (m k : Shift) (i i' : IncludeSite) : Prop where
  eq_move : i = i'.move k
  place : m.Places file i'.file k

/-- Two sessions have read the same, in a source and in a part of it. -/
structure Session.Moved (file : String) (m : Move) (s s' : Session) : Prop where
  options_eq : s.options = s'.options
  builder : s.builder.Moved file m s'.builder
  pendingDoc_eq : s.pendingDoc = s'.pendingDoc
  warnings : List.Forall₂ (Warning.Moved file m) s.warnings.toList s'.warnings.toList
  visited_eq : s.visited = s'.visited
  isCancelled_eq : s.isCancelled = s'.isCancelled

theorem Fault.diagnostic_move (m : Move) (f : Fault) :
    (f.move m).diagnostic = f.diagnostic.move m := by
  cases f <;> rfl

theorem Warning.move_severalComments (m : Move) (file : String) (line : Nat) (last : Span) :
    (severalComments file line last).move m =
      severalComments file (line + m.lines) (last.move m) := rfl

/-- Where a file is read as a whole, nothing is moved. -/
theorem Shift.IsWhole.move_eq {k : Shift} (h : k.IsWhole) : k.move = .over [] :=
  congrArg Move.over h.before_eq

theorem Shift.IsWhole.around {k : Shift} (h : k.IsWhole) (text : String) :
    String.ofList (k.before ++ text.toList ++ k.after) = text := by
  rw [h.before_eq, h.after_eq, List.nil_append, List.append_nil, String.ofList_toList]

theorem Diagnostic.move_over_nil (d : Diagnostic) : d.move (.over []) = d := by
  have hlabels : d.labels.map (Label.move (.over [])) = d.labels := List.map_id _
  rw [move, hlabels]

theorem Warning.move_over_nil (w : Warning) : w.move (.over []) = w := by
  rw [move, Diagnostic.move_over_nil]
  rfl

theorem Shift.IsWhole.failure_move {k : Shift} (h : k.IsWhole) (f : Failure) : f.move k = f := by
  rw [Failure.move, h.move_eq, h.around, Diagnostic.move_over_nil]
  rfl

namespace Shift.Places

variable {file name : String} {m k : Shift}

/-- A line of the part, moved if the part is cut from its file. -/
theorem move_eq (h : m.Places file name k) :
    k.move = .over [] ∨ (k.move = m.move ∧ name = file) := by
  rcases h with hwhole | ⟨rfl, hname⟩
  · exact Or.inl hwhole.move_eq
  · exact Or.inr ⟨rfl, hname⟩

theorem entry (h : m.Places file name k) (e : Entry) : (e.move k.move).Moved m.move e := by
  rcases h.move_eq with hmove | ⟨hmove, -⟩
  · rw [hmove]
    exact Or.inl rfl
  · rw [hmove]
    exact Or.inr rfl

theorem note (h : m.Places file name k) {n : TaskNote} (hn : n.file = name) :
    (n.move k.move).Moved file m.move n := by
  rcases h.move_eq with hmove | ⟨hmove, hname⟩
  · rw [hmove]
    exact Or.inl rfl
  · rw [hmove]
    exact Or.inr ⟨hn.trans hname, rfl⟩

theorem warning (h : m.Places file name k) {w : Warning} (hw : w.file = name) :
    (w.move k.move).Moved file m.move w := by
  rcases h.move_eq with hmove | ⟨hmove, hname⟩
  · rw [hmove]
    exact Or.inl w.move_over_nil
  · rw [hmove]
    exact Or.inr ⟨hw.trans hname, rfl⟩

end Shift.Places

/-- A fault without a place is the same failure of an include wherever that stands. -/
theorem moved_failureOf {file : String} {m k : Shift} {i i' : IncludeSite}
    (h : i.Moved file m k i') (path : String) {fault : Fault} (hfault : fault.labels = []) :
    (failureOf path (some i) fault).Moved file m k (failureOf path (some i') fault) := by
  refine ⟨?_, h.place⟩
  rw [h.eq_move]
  simp only [failureOf, Failure.move, IncludeSite.move, Diagnostic.move, Diagnostic.addLabel,
    Fault.diagnostic, hfault, List.nil_append, List.map_cons, List.map_nil]
  rfl

/-! ## Documentation -/

theorem Doc.Progress.readLine_move (m : Move) (comment : Span) (p : Progress) (line : List Char) :
    p.readLine (comment.move m) line = (p.readLine comment line).mapError (Fault.move m) := by
  unfold readLine
  split
  · dsimp only
    split <;> rfl
  · rfl

theorem Doc.foldlM_readLine_move (m : Move) (comment : Span) (p : Progress)
    (lines : List (List Char)) :
    lines.foldlM (Progress.readLine (comment.move m)) p =
      (lines.foldlM (Progress.readLine comment) p).mapError (Fault.move m) := by
  induction lines generalizing p with
  | nil => rfl
  | cons line lines ih =>
    rw [List.foldlM_cons, List.foldlM_cons, Progress.readLine_move]
    cases Progress.readLine comment p line with
    | error fault => rfl
    | ok p' => exact ih p'

/-- A documentation comment says the same wherever it stands, or has the same fault. -/
theorem Doc.ofComment_move (m : Move) (text : String) (comment : Span) :
    ofComment text (comment.move m) = (ofComment text comment).mapError (Fault.move m) := by
  unfold ofComment
  dsimp only
  rw [foldlM_readLine_move]
  cases List.foldlM (Progress.readLine comment) Progress.start _ <;> rfl

/-! ## Sessions -/

namespace Session

variable {file name : String} {m k : Shift} {s s' : Session}

theorem Moved.refl {move : Move} (s : Session) : s.Moved file move s where
  options_eq := rfl
  builder := .refl s.builder
  pendingDoc_eq := rfl
  warnings := List.forall₂_same.2 fun _ _ => Or.inl rfl
  visited_eq := rfl
  isCancelled_eq := rfl

/-- Where nothing is moved, the sessions are the same. -/
theorem Moved.eq_of_over_nil (h : s.Moved file (.over []) s') : s = s' := by
  obtain ⟨options, builder, pendingDoc, warnings, visited, isCancelled⟩ := s
  obtain ⟨options', builder', pendingDoc', warnings', visited', isCancelled'⟩ := s'
  have hwarnings : warnings = warnings' := by
    refine Array.toList_inj.1 (List.forall₂_eq_eq_eq ▸ h.warnings.imp fun w w' hw => ?_)
    rcases hw with hw | ⟨-, hw⟩
    · exact hw
    · rw [hw, w'.move_over_nil]
  rw [mk.injEq]
  exact ⟨h.options_eq, h.builder.eq_of_over_nil, h.pendingDoc_eq, hwarnings, h.visited_eq,
    h.isCancelled_eq⟩

theorem Moved.withBuilder {move : Move} (h : s.Moved file move s') {b b' : Builder}
    (hb : b.Moved file move b') :
    Moved file move { s with builder := b } { s' with builder := b' } :=
  { h with builder := hb }

theorem Moved.cancel {move : Move} (h : s.Moved file move s') :
    s.cancel.Moved file move s'.cancel :=
  { h with isCancelled_eq := rfl }

theorem Moved.visit {move : Move} (h : s.Moved file move s') (key : String) :
    (s.visit key).Moved file move (s'.visit key) := by
  unfold Session.visit
  rw [h.visited_eq]
  split
  · exact h
  · exact { h with visited_eq := rfl }

theorem Moved.harvestComment (h : s.Moved file m.move s') (hk : m.Places file name k)
    (subject : Option String) (t : Trivia) :
    (harvestComment name subject s (t.move k.move)).Moved file m.move
      (harvestComment name subject s' t) := by
  have htags : TaskNote.ofComment? s.options.tags t.text =
      TaskNote.ofComment? s'.options.tags t.text := by
    rw [h.options_eq]
  unfold Session.harvestComment
  rw [Trivia.kind_move, Trivia.text_move, htags]
  split
  · split
    next tag text _ =>
      exact h.withBuilder (h.builder.pushNote
        (hk.note (n := ⟨tag, text, name, t.line, subject⟩) rfl))
    · exact h
  · exact h

/-- The same task notes are found among the same trivia. -/
theorem Moved.harvest (h : s.Moved file m.move s') (hk : m.Places file name k)
    (trivia : List Trivia) (subject : Option String) :
    (s.harvest name (trivia.map (Trivia.move k.move)) subject).Moved file m.move
      (s'.harvest name trivia subject) := by
  unfold Session.harvest
  induction trivia generalizing s s' with
  | nil => exact h
  | cons t trivia ih => exact ih (h.harvestComment hk subject t)

theorem docComments_map_move (move : Move) (trivia : List Trivia) :
    docComments (trivia.map (Trivia.move move)) = (docComments trivia).map (Trivia.move move) := by
  unfold docComments
  rw [List.filter_map]
  rfl

theorem Moved.pushWarning {move : Move} (h : s.Moved file move s') {w w' : Warning}
    (hw : w.Moved file move w') :
    Moved file move { s with warnings := s.warnings.push w }
      { s' with warnings := s'.warnings.push w' } := by
  refine { h with warnings := ?_ }
  simp only [Array.toList_push]
  exact List.rel_append h.warnings (.cons hw .nil)

/-- The same documentation is taken, or the same fault is found in it. -/
theorem Moved.takeDoc (h : s.Moved file m.move s') (hk : m.Places file name k) (line : Nat)
    (trivia : List Trivia) :
    (s.takeDoc name (line + k.move.lines) (trivia.map (Trivia.move k.move))).1 =
        (s'.takeDoc name line trivia).1.mapError (Fault.move k.move) ∧
      (s.takeDoc name (line + k.move.lines) (trivia.map (Trivia.move k.move))).2.Moved file m.move
        (s'.takeDoc name line trivia).2 := by
  unfold Session.takeDoc
  rw [docComments_map_move]
  dsimp only
  rw [List.getLast?_map, List.length_map]
  cases (docComments trivia).getLast? with
  | none => exact ⟨rfl, h⟩
  | some last =>
    dsimp only [Option.map_some, Trivia.move]
    rw [Doc.ofComment_move]
    by_cases hseveral : (docComments trivia).length > 1
    · have hwarned := h.pushWarning (hk.warning (w := .severalComments name line last.span) rfl)
      rw [Warning.move_severalComments] at hwarned
      rw [if_pos hseveral, if_pos hseveral]
      cases Doc.ofComment last.text last.span with
      | ok doc => exact ⟨rfl, { hwarned with pendingDoc_eq := rfl }⟩
      | error fault => exact ⟨rfl, hwarned⟩
    · rw [if_neg hseveral, if_neg hseveral]
      cases Doc.ofComment last.text last.span with
      | ok doc => exact ⟨rfl, { h with pendingDoc_eq := rfl }⟩
      | error fault => exact ⟨rfl, h⟩

/-- The same declaration is added. -/
theorem Moved.addDeclaration (h : s.Moved file m.move s') (hk : m.Places file name k)
    (d : Declaration) (line : Nat) :
    (s.addDeclaration d (line + k.move.lines)).Moved file m.move (s'.addDeclaration d line) := by
  refine { h.withBuilder (h.builder.pushEntry ?_) with pendingDoc_eq := rfl }
  rw [h.pendingDoc_eq]
  exact hk.entry ⟨d, line, s'.pendingDoc⟩

end Session

end AcsOutline
