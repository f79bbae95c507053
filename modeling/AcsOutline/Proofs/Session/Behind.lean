import AcsOutline.Proofs.Session.Harvest
import AcsOutline.Proofs.Session.Lockstep

/-!
# What happens behind a part of a source

Two runs in lockstep have the same history (`Run.history_behind`).  What happens while the file
that the part is cut from is the only one open happens in both at the same place of that file,
which the one that reads the part counts from the start of the part.  What happens in an included
file happens at the same place, counted from the start of that file.

So the history of the part tells of each declaration, task note, warning and failure whether it is
moved (`History.behind`, `Failure.Behind`).
-/

namespace AcsOutline

open Builder (Edit)

/-- A step taken in a part, with its line in the source. -/
def Builder.Edit.move (m : Move) : Edit → Edit
  | .entry e => .entry (e.move m)
  | .note n => .note (n.move m)
  | .enter key => .enter key
  | .leave => .leave

/-- How far a part is read, as how far the source is read. -/
def ReadPoint.move (m : Shift) (p : ReadPoint) : ReadPoint where
  file := p.file
  source := String.ofList (m.before ++ p.source.toList ++ m.after)
  offset := p.offset + m.move.bytes

namespace Happening

/-- What happens in a part, at its place in the source. -/
def move (m : Shift) : Happening → Happening
  | opens file source => opens file source
  | starts place first => starts (place.move m) (first.move m.move)
  | edits e => edits (e.move m.move)
  | ends first last declaration => ends (first.move m.move) (last.move m.move) declaration
  | leaves => leaves
  | stops => stops

/-- Whether it happens within the innermost file. -/
def isWithin : Happening → Bool
  | starts _ _ | edits _ | ends _ _ _ => true
  | opens _ _ | leaves | stops => false

end Happening

/-- What happens as a part is read, at its place in the source: it is moved where just one of the
files is open, which is the one that the part is cut from. -/
def History.behind (m : Shift) : List ReadPoint → History → History
  | _, [] => []
  | opened, x :: h =>
    (if opened.length = 1 then x.move m else x) :: behind m (x.walk opened) h

/-- `f` is the failure `f'` of a part, found while some files are open.  It is moved if just one of
them is, and what is moved belongs to the file that the part is cut from. -/
structure Failure.Behind (file : String) (m : Shift) (opened : List ReadPoint)
    (f f' : Failure) : Prop where
  eq_move : f = if opened.length = 1 then f'.move m else f'
  file_eq : f = f' ∨ f'.file = file

variable {file : String} {m k : Shift}

/-! ## Files that are read as a whole -/

namespace Shift.IsWhole

variable (h : k.IsWhole)

include h

theorem place_move (p : ReadPoint) : p.move k = p := by
  rw [ReadPoint.move, h.move_eq, h.around]
  rfl

/-- What happens in a file that is read as a whole happens at the same place. -/
theorem happening_move (x : Happening) : x.move k = x := by
  cases x with
  | starts place first =>
    rw [Happening.move, h.place_move, h.move_eq]
    rfl
  | edits e =>
    rw [Happening.move, h.move_eq]
    cases e <;> rfl
  | ends first last declaration =>
    rw [Happening.move, h.move_eq]
    rfl
  | _ => rfl

end Shift.IsWhole

/-! ## Histories that are moved -/

namespace History

variable {opened : List ReadPoint} {h : History}

theorem behind_append (m : Shift) (opened : List ReadPoint) (h h' : History) :
    behind m opened (h ++ h') =
      behind m opened h ++ behind m (h.foldl Happening.walk opened) h' := by
  induction h generalizing opened with
  | nil => rfl
  | cons x h ih =>
    rw [List.cons_append, behind, behind, ih]
    rfl

theorem map_edits_move (m : Shift) (es : List Edit) :
    (es.map Happening.edits).map (Happening.move m) = (es.map (Edit.move m.move)).map .edits := by
  rw [List.map_map, List.map_map]
  rfl

/-- Only what stands around the part says where things happen in the source. -/
theorem behind_congr (hbefore : m.before = k.before) (hafter : m.after = k.after)
    (opened : List ReadPoint) (h : History) : behind m opened h = behind k opened h := by
  have hmove : Happening.move m = Happening.move k := by
    funext x
    cases x <;> simp only [Happening.move, ReadPoint.move, Shift.move, hbefore, hafter]
  induction h generalizing opened with
  | nil => rfl
  | cons x h ih => rw [behind, behind, ih, hmove]

/-- What happens within the innermost file leaves as many files open. -/
theorem length_walk {x : Happening} (hx : x.isWithin = true) (opened : List ReadPoint) :
    (x.walk opened).length = opened.length := by
  cases x with
  | ends first last declaration => cases opened <;> rfl
  | starts | edits => rfl
  | opens | leaves | stops => cases hx

theorem length_foldl_walk (hh : ∀ x ∈ h, x.isWithin = true) (opened : List ReadPoint) :
    (h.foldl Happening.walk opened).length = opened.length := by
  induction h generalizing opened with
  | nil => rfl
  | cons x h ih =>
    rw [List.foldl_cons, ih fun y hy => hh y (List.mem_cons_of_mem _ hy),
      length_walk (hh x List.mem_cons_self)]

theorem isWithin_of_mem_edits {es : List Edit} {x : Happening} (hx : x ∈ es.map Happening.edits) :
    x.isWithin = true := by
  obtain ⟨e, -, rfl⟩ := List.mem_map.1 hx
  rfl

theorem move_of_not_isWithin {x : Happening} (hx : x.isWithin = false) (m : Shift) :
    x.move m = x := by
  cases x with
  | starts | edits | ends => cases hx
  | opens | leaves | stops => rfl

theorem map_move_of_not_isWithin (hh : ∀ x ∈ h, x.isWithin = false) (m : Shift) :
    h.map (Happening.move m) = h :=
  (List.map_congr_left fun x hx => move_of_not_isWithin (hh x hx) m).trans (List.map_id h)

theorem behind_of_not_isWithin (hh : ∀ x ∈ h, x.isWithin = false) (m : Shift)
    (opened : List ReadPoint) : behind m opened h = h := by
  induction h generalizing opened with
  | nil => rfl
  | cons x h ih =>
    rw [behind, move_of_not_isWithin (hh x List.mem_cons_self), ite_self,
      ih fun y hy => hh y (List.mem_cons_of_mem _ hy)]

/-- What happens in the innermost file is moved as that is, up to where files are opened and
left. -/
theorem behind_eq_map {h' : History} (hh : ∀ x ∈ h, x.isWithin = true)
    (hh' : ∀ x ∈ h', x.isWithin = false) (hk : m.Innermost k opened.length) :
    behind m opened (h ++ h') = (h ++ h').map (Happening.move k) := by
  rw [behind_append, behind_of_not_isWithin hh', List.map_append, map_move_of_not_isWithin hh']
  congr 1
  -- as many files stay open, so that what is moved is the same to the end of `h`
  induction h generalizing opened with
  | nil => rfl
  | cons x h ih =>
    have hlength := length_walk (hh x List.mem_cons_self) opened
    rw [behind, List.map_cons, ih (fun y hy => hh y (List.mem_cons_of_mem _ hy)) (hlength ▸ hk)]
    split
    next hone => rw [hk.of_alone hone]
    next hne => rw [(hk.of_included hne).happening_move]

end History

/-! ## One round -/

theorem TaskNote.ofTrivia?_move (m : Move) (tags : List String) (file : String)
    (subject : Option String) (t : Trivia) :
    ofTrivia? tags file subject (t.move m) = (ofTrivia? tags file subject t).map (move m) := by
  unfold ofTrivia?
  rw [Trivia.kind_move, Trivia.text_move]
  cases t.kind with
  | lineComment => cases TaskNote.ofComment? tags t.text <;> rfl
  | _ => rfl

theorem Builder.noteEdits_map_move (m : Move) (tags : List String) (file : String)
    (trivia : List Trivia) (subject : Option String) :
    noteEdits tags file (trivia.map (Trivia.move m)) subject =
      (noteEdits tags file trivia subject).map (Edit.move m) := by
  have hnote : TaskNote.ofTrivia? tags file subject ∘ Trivia.move m =
      fun t => (TaskNote.ofTrivia? tags file subject t).map (TaskNote.move m) :=
    funext (TaskNote.ofTrivia?_move m tags file subject)
  rw [noteEdits, noteEdits, List.filterMap_map, hnote, ← List.map_filterMap, List.map_map,
    List.map_map]
  rfl

/-- The same namespaces are opened and closed. -/
theorem Builder.namespaceEdits_move {first first' : Scanner} (hfirst : first.Mirrors k first')
    (hafter : k.after = []) :
    namespaceEdits first = (namespaceEdits first').map (Edit.move k.move) := by
  have hhead := Grammar.agrees_namespaceHead.relates hfirst
  unfold namespaceEdits
  cases e : Grammar.namespaceHead first with
  | error fault u =>
    rw [e] at hhead
    obtain ⟨_, v, hq, -⟩ := hhead hafter
    rw [hq]
    rfl
  | ok head u =>
    rw [e] at hhead
    obtain ⟨head', v, hq, rfl, -⟩ := hhead (hafter ▸ List.nil_suffix)
    rw [hq]
    cases head' with
    | none =>
      dsimp only [Option.map_none]
      rw [hfirst.kind_eq]
      split <;> rfl
    | some head' =>
      dsimp only [Option.map_some]
      rw [List.map_map]
      rfl

namespace OpenFile

variable {f f' : OpenFile} {s s' : Session}

theorem Beside.place_eq (h : f.Beside file m k f') : f.place = f'.place.move k := by
  have hsource : f.source = String.ofList (k.before ++ f'.source.toList ++ k.after) := by
    rw [← h.source_eq, String.ofList_toList]
  rw [OpenFile.place, h.name_eq, h.scanner.position_eq, hsource]
  rfl

/-- The same happens as a declaration is read. -/
theorem Beside.reading_eq (hf : f.Beside file m k f') (hs : s.Moved file m.move s')
    (hafter : k.after = []) {first first' : Scanner} (hfirst : first.Mirrors k first') :
    f.reading s first = (f'.reading s' first').map (Happening.move k) := by
  have hnamespace := Builder.namespaceEdits_move hfirst hafter
  have hdesk : Desk.Beside file m.move k ⟨first, s.builder⟩ ⟨first', s'.builder⟩ :=
    ⟨hfirst, hs.builder⟩
  have hrecognize := relates_recognize hdesk
  unfold reading
  cases e : recognize ⟨first, s.builder⟩ with
  | error rejection desk =>
    rw [e] at hrecognize
    obtain ⟨rejection', desk', hq, -⟩ := hrecognize hafter
    rw [hq]
    dsimp only
    rw [hnamespace, History.map_edits_move]
  | ok declaration desk =>
    rw [e] at hrecognize
    obtain ⟨desk', hq, hdesk'⟩ := hrecognize (hafter ▸ List.nil_suffix)
    have htrivia := hdesk'.scanner.toAlongside.triviaSince hfirst.toAlongside
    rw [hq]
    dsimp only
    rw [hnamespace, htrivia, Builder.noteEdits_map_move, hf.name_eq, hs.options_eq,
      hs.pendingDoc_eq, hfirst.token_eq, hdesk'.scanner.token_eq]
    simp only [List.map_append, History.map_edits_move]
    cases declaration <;> rfl

/-- **The same happens in a file**, at places that are moved as the file is. -/
theorem Beside.happenings_eq (hf : f.Beside file m k f') (hs : s.Moved file m.move s')
    (hafter : k.after = []) :
    f.happenings s = (f'.happenings s').map (Happening.move k) := by
  have hfirst := hf.scanner.next (hafter ▸ List.nil_suffix)
  have htrivia := hfirst.toAlongside.triviaSince hf.scanner
  have hline : f.scanner.next.token.line = f'.scanner.next.token.line + k.move.lines :=
    congrArg Token.line hfirst.token_eq
  have hharvest := hs.harvest hf.place (f'.scanner.next.triviaSince f'.scanner.triviaCount) none
  have hdoc := hharvest.takeDoc hf.place f'.scanner.next.token.line
    (f'.scanner.next.triviaSince f'.scanner.triviaCount)
  unfold happenings
  dsimp only
  rw [hf.name_eq, hs.options_eq, htrivia, hline, Builder.noteEdits_map_move, hfirst.kind_eq]
  generalize Session.takeDoc _ f'.name _ (List.map _ _) = taken at hdoc ⊢
  generalize Session.takeDoc _ f'.name _ _ = taken' at hdoc ⊢
  obtain ⟨result, s₁⟩ := taken
  obtain ⟨result', s₁'⟩ := taken'
  obtain ⟨rfl, hmoved⟩ := hdoc
  split
  · rw [List.map_append, History.map_edits_move]
    rfl
  · rw [List.map_append, List.map_cons, History.map_edits_move, hf.place_eq, hfirst.token_eq]
    cases result' with
    | error fault => rfl
    | ok _ =>
      dsimp only [Except.mapError]
      rw [hf.reading_eq hmoved hafter hfirst]
      rfl

theorem isWithin_reading (f : OpenFile) (s : Session) (first : Scanner) :
    ∀ x ∈ f.reading s first, x.isWithin = true := by
  unfold reading
  intro x hx
  split at hx
  · exact History.isWithin_of_mem_edits hx
  · rcases List.mem_append.1 hx with hx | hx
    · rcases List.mem_append.1 hx with hx | hx
      · rcases List.mem_append.1 hx with hx | hx
        · exact History.isWithin_of_mem_edits hx
        · obtain ⟨d, -, rfl⟩ := Option.map_eq_some_iff.1 (Option.mem_toList.1 hx)
          rfl
      · exact History.isWithin_of_mem_edits hx
    · rw [List.mem_singleton.1 hx]
      rfl

/-- At the end of a file its last trivia is harvested, and it is left. -/
theorem happenings_of_eof (heof : f.scanner.next.token.kind = .eof) (s : Session) :
    f.happenings s = (Builder.noteEdits s.options.tags f.name
      (f.scanner.next.triviaSince f.scanner.triviaCount) none).map .edits ++ [.leaves] := by
  unfold happenings
  exact if_pos heof

/-- What happens before the end of a file happens within it. -/
theorem isWithin_happenings (hne : f.scanner.next.token.kind ≠ .eof) (s : Session) :
    ∀ x ∈ f.happenings s, x.isWithin = true := by
  unfold happenings
  dsimp only
  rw [if_neg hne]
  intro x hx
  rcases List.mem_append.1 hx with hx | hx
  · exact History.isWithin_of_mem_edits hx
  rcases List.mem_cons.1 hx with rfl | hx
  · rfl
  split at hx
  · cases hx
  · exact isWithin_reading f _ _ x hx

end OpenFile

/-- What happens after a stage does not happen within a file. -/
theorem Stage.isWithin_happenings (loader : Loader) (stage : Stage) :
    ∀ x ∈ stage.happenings loader, x.isWithin = false := by
  intro x hx
  unfold happenings at hx
  split at hx
  · rw [List.mem_singleton.1 hx]
    rfl
  · cases hx
  · unfold Request.happenings at hx
    split at hx <;> rw [List.mem_singleton.1 hx] <;> rfl

/-- The same files are opened. -/
theorem Stage.Matches.happenings_eq {stage stage' : Stage} (h : stage.Matches file m k stage')
    (loader : Loader) : stage.happenings loader = stage'.happenings loader := by
  rcases h with hs | ⟨hq, hr⟩
  · cases hs <;> rfl
  · dsimp only [happenings]
    unfold Request.happenings Request.openFile
    rw [hq.location_eq, hq.path_eq]

theorem optionRel_imp {α β : Type} {p q : α → β → Prop} (h : ∀ a b, p a b → q a b) {a : Option α}
    {b : Option β} (hab : Option.Rel p a b) : Option.Rel q a b := by
  cases hab with
  | none => exact .none
  | some hp => exact .some (h _ _ hp)

namespace Run

variable {r r' : Run} {files : SourceFiles}

/-- In a round things happen within the innermost file first, and then files are opened and
left. -/
theorem exists_happenings_eq (loader : Loader) (r : Run) :
    ∃ own later : History, r.happenings loader = own ++ later ∧
      (∀ x ∈ own, x.isWithin = true) ∧ ∀ x ∈ later, x.isWithin = false := by
  have hstage := (r.advance loader.resolve).isWithin_happenings loader
  unfold happenings
  dsimp only
  cases r.files with
  | nil => exact ⟨[], _, rfl, List.forall_mem_nil _, hstage⟩
  | cons f outer =>
    dsimp only
    split
    · exact ⟨[], _, rfl, List.forall_mem_nil _, hstage⟩
    by_cases heof : f.scanner.next.token.kind = .eof
    · rw [OpenFile.happenings_of_eof heof, List.append_assoc]
      refine ⟨_, _, rfl, fun x hx => History.isWithin_of_mem_edits hx, fun x hx => ?_⟩
      rcases List.mem_cons.1 hx with rfl | hx
      · rfl
      · exact hstage x hx
    · exact ⟨_, _, rfl, OpenFile.isWithin_happenings heof _, hstage⟩

/-- A round that fails stops within the innermost file. -/
theorem happenings_of_failed {failure : Failure} {s : Session}
    (h : r.step files = .failed failure s) :
    ∃ own : History, r.happenings (.ofFiles files) = own ++ [.stops] ∧
      ∀ x ∈ own, x.isWithin = true := by
  unfold happenings
  dsimp only [Loader.ofFiles]
  cases hfiles : r.files with
  | nil =>
    rw [step_of_files_nil files hfiles] at h
    cases h
  | cons f outer =>
    unfold step at h
    rw [advance_of_files _ hfiles] at h ⊢
    dsimp only
    split
    · exact ⟨[], rfl, List.forall_mem_nil _⟩
    next hcancelled =>
      rw [if_neg hcancelled] at h
      -- to leave a file is no failure, so a declaration has started
      by_cases heof : f.scanner.next.token.kind = .eof
      · rw [readFile_of_eof heof] at h
        cases h
      refine ⟨_, ?_, OpenFile.isWithin_happenings heof r.session⟩
      congr 1
      rcases e : readFile files.resolve r.session f outer with step | ⟨q, r₁⟩
      · rw [e] at h
        cases h
        rfl
      · rw [e] at h
        unfold Request.answer at h
        dsimp only [Stage.happenings] at h ⊢
        unfold Request.happenings
        cases hcontent : (files.load q.location).content with
        | error fault => rfl
        | ok text =>
          rw [hcontent] at h
          cases h

/-- **The same happens in a round**, at places that are moved as the innermost file is. -/
theorem happenings_behind (loader : Loader) (hafter : m.after = []) (h : r.Beside file m r') :
    r.happenings loader = (r'.happenings loader).behind m (r'.files.map OpenFile.place) := by
  obtain ⟨k, -, hmatches⟩ := matches_advance loader.resolve h (Stage.inside_of_after_nil hafter _)
  have hstage := hmatches.happenings_eq loader
  obtain ⟨session, fs⟩ := r
  obtain ⟨session', fs'⟩ := r'
  obtain ⟨hs, ⟨rfl, rfl⟩ | hstacked⟩ := h
  · rfl
  -- what happens within the innermost file is moved; the files that are opened are the same
  cases fs with
  | nil => exact absurd rfl hstacked.ne_nil.1
  | cons f outer =>
    cases fs' with
    | nil => exact absurd rfl hstacked.ne_nil.2
    | cons f' outer' =>
      obtain ⟨k, hf, hframes⟩ := hstacked.frames
      have hk : m.Innermost k ((f' :: outer').map OpenFile.place).length := by
        rw [List.length_map]
        exact hframes.innermost
      obtain ⟨own, later, heq, hown, hlater⟩ := exists_happenings_eq loader ⟨session', f' :: outer'⟩
      rw [heq, History.behind_eq_map hown hlater hk, ← heq]
      unfold happenings
      dsimp only at hs ⊢
      rw [List.map_append, History.map_move_of_not_isWithin (Stage.isWithin_happenings _ _), hstage,
        hs.isCancelled_eq]
      split
      · rfl
      · rw [hf.happenings_eq hs (hframes.after hafter)]

/-- A failure is moved as the innermost file is. -/
theorem behind_of_moved {opened : List ReadPoint} {f f' : Failure} (h : f.Moved file m k f')
    (hk : m.Innermost k opened.length) : f.Behind file m opened f' := by
  constructor
  · split
    next hone => rw [h.eq_move, hk.of_alone hone]
    next hne => rw [h.eq_move, (hk.of_included hne).failure_move]
  · rcases h.place with hwhole | ⟨-, hname⟩
    · exact Or.inl (h.eq_move.trans (hwhole.failure_move f'))
    · exact Or.inr hname

/-- **Two runs have the same history** where nothing follows the part: what happens as the whole
source is read is what happens as the part is read, behind what stands before the part. -/
theorem history_behind (hafter : m.after = []) (h : r.Beside file m r')
    (hr' : ∀ f ∈ r'.files, f.Reached) :
    r.history files = (r'.history files).behind m (r'.files.map OpenFile.place) := by
  induction r using Run.complete.induct files generalizing r' with
  | case1 r s hstep =>
    obtain ⟨s', hstep', -⟩ := h.step_finished hstep
    rw [history_eq, history_eq files r', hstep, hstep', List.append_nil, List.append_nil]
    exact happenings_behind (.ofFiles files) hafter h
  | case2 r failure s hstep =>
    obtain ⟨_, failure', s', -, hstep', -⟩ := h.step_failed hstep hafter
    rw [history_eq, history_eq files r', hstep, hstep', List.append_nil, List.append_nil]
    exact happenings_behind (.ofFiles files) hafter h
  | case3 r r₁ hstep ih =>
    obtain ⟨r₁', hstep', hr₁⟩ := h.step_reading hstep (Or.inl hafter)
    -- the files that are open in the part after this round tell what is moved later
    obtain ⟨hbecomes, hreached⟩ := becomes_step hr' hstep'
    rw [history_eq, history_eq files r', hstep, hstep', History.behind_append,
      ← happenings_behind (.ofFiles files) hafter h, ← hbecomes.places_eq]
    dsimp only
    rw [ih hr₁ hreached]

/-- **Two runs fail alike** where nothing follows the part: the history of the part tells whether
the failure is moved. -/
theorem failure_behind (hafter : m.after = []) (h : r.Beside file m r')
    (hr' : ∀ f ∈ r'.files, f.Reached) :
    Option.Rel (fun f f' => ∃ past : History, r'.history files = past ++ [.stops] ∧
        f.Behind file m (past.foldl Happening.walk (r'.files.map OpenFile.place)) f')
      (r.complete files).1 (r'.complete files).1 := by
  induction r using Run.complete.induct files generalizing r' with
  | case1 r s hstep =>
    obtain ⟨s', hstep', -⟩ := h.step_finished hstep
    rw [complete_eq, complete_eq files r', hstep, hstep']
    exact .none
  | case2 r failure s hstep =>
    obtain ⟨k, failure', s', hk, hstep', hf, -⟩ := h.step_failed hstep hafter
    obtain ⟨own, hown, hwithin⟩ := happenings_of_failed hstep'
    rw [complete_eq, complete_eq files r', history_eq files r', hstep, hstep']
    refine .some ⟨own, by rw [hown, List.append_nil], behind_of_moved hf ?_⟩
    rw [History.length_foldl_walk hwithin, List.length_map]
    exact hk
  | case3 r r₁ hstep ih =>
    obtain ⟨r₁', hstep', hr₁⟩ := h.step_reading hstep (Or.inl hafter)
    obtain ⟨hbecomes, hreached⟩ := becomes_step hr' hstep'
    rw [complete_eq, complete_eq files r', history_eq files r', hstep, hstep']
    refine optionRel_imp ?_ (ih hr₁ hreached)
    rintro f f' ⟨past, hpast, hf⟩
    refine ⟨r'.happenings (.ofFiles files) ++ past, ?_, ?_⟩
    · dsimp only
      rw [hpast, List.append_assoc]
    · rw [List.foldl_append, ← hbecomes.places_eq]
      exact hf

end Run

end AcsOutline
