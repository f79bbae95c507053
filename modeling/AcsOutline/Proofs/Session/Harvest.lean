import AcsOutline.Proofs.Session.Documentation

/-!
# Task notes are harvested once

Every line comment of a source is looked at once for a task note: with the trivia before a
declaration, or with the trivia inside one, or behind the last one.  A note has the label of the
declaration that the comment stands in, and it is stored in the namespace that is open once every
declaration that begins before the comment is read (`Session.notes_readSource`).

`History.Alone` are the histories of a file that includes nothing.  What a history tells about a
comment depends on the tokens around it alone, so that the rounds after it do not matter.
-/

namespace AcsOutline

open Builder (Edit)

namespace Happening

/-- Whether a file is opened. -/
def isOpening : Happening → Bool
  | opens _ _ => true
  | _ => false

/-- The label of the declaration that ends, if a piece of trivia stands in it. -/
def holder? (x : Trivia) : Happening → Option String
  | ends first last declaration =>
    if first.span.stop ≤ x.span.start ∧ x.span.stop ≤ last.span.start then
      declaration.map Declaration.label
    else none
  | _ => none

/-- Whether a declaration starts behind a piece of trivia. -/
def startsAfter (x : Trivia) : Happening → Bool
  | starts _ first => x.span.stop ≤ first.span.start
  | _ => false

/-- The first token of the declaration that starts or ends. -/
def first? : Happening → Option Token
  | starts _ first | ends first _ _ => some first
  | _ => none

end Happening

namespace History

variable {x : Trivia} {h h' : History} {path : List NamespaceKey} {es : List Edit}

/-- The label of the declaration that a piece of trivia stands in. -/
def subject? (h : History) (x : Trivia) : Option String :=
  h.findSome? (Happening.holder? x)

/-- The namespaces that are open when every declaration that begins before a piece of trivia is
read, where those of `path` are open at first. -/
def openAt (h : History) (path : List NamespaceKey) (x : Trivia) : List NamespaceKey :=
  (edits (h.takeWhile fun y => !y.startsAfter x)).foldl Edit.walk path

/-- The task note that a piece of trivia is, with the namespace that it belongs to. -/
def placedNote? (tags : List String) (file : String) (path : List NamespaceKey) (h : History)
    (x : Trivia) : Option (List NamespaceKey × TaskNote) :=
  (TaskNote.ofTrivia? tags file (subject? h x) x).map (openAt h path x, ·)

/-! ## What a history tells about a comment -/

theorem subject?_edits (es : List Edit) (h : History) (x : Trivia) :
    subject? (es.map .edits ++ h) x = subject? h x := by
  have hnone : (es.map Happening.edits).findSome? (Happening.holder? x) = none := by
    rw [List.findSome?_eq_none_iff]
    intro y hy
    obtain ⟨e, -, rfl⟩ := List.mem_map.1 hy
    rfl
  rw [subject?, List.findSome?_append, hnone]
  rfl

theorem subject?_starts (place : ReadPoint) (first : Token) (h : History) (x : Trivia) :
    subject? (.starts place first :: h) x = subject? h x := rfl

theorem subject?_ends_of_pos {first last : Token} {declaration : Option Declaration}
    (hx : first.span.stop ≤ x.span.start ∧ x.span.stop ≤ last.span.start) :
    subject? (.ends first last declaration :: h) x =
      (declaration.map Declaration.label).or (subject? h x) := by
  rw [subject?, List.findSome?_cons, Happening.holder?, if_pos hx]
  cases declaration <;> rfl

theorem subject?_ends_of_neg {first last : Token} {declaration : Option Declaration}
    (hx : ¬(first.span.stop ≤ x.span.start ∧ x.span.stop ≤ last.span.start)) :
    subject? (.ends first last declaration :: h) x = subject? h x := by
  rw [subject?, List.findSome?_cons, Happening.holder?, if_neg hx]
  rfl

theorem edits_starts (place : ReadPoint) (first : Token) (h : History) :
    edits (.starts place first :: h) = edits h := rfl

theorem edits_ends (first last : Token) (declaration : Option Declaration) (h : History) :
    edits (.ends first last declaration :: h) = edits h := rfl

theorem openAt_edits (es : List Edit) (h : History) (path : List NamespaceKey) (x : Trivia) :
    openAt (es.map .edits ++ h) path x = openAt h (es.foldl Edit.walk path) x := by
  have hpass : ∀ y ∈ es.map Happening.edits, (!y.startsAfter x) = true := by
    intro y hy
    obtain ⟨e, -, rfl⟩ := List.mem_map.1 hy
    rfl
  rw [openAt, List.takeWhile_append_of_pos hpass, edits_append, edits_map, List.foldl_append]
  rfl

theorem openAt_cons_of_pass {y : Happening} (hpass : y.startsAfter x = false)
    (hedit : y.edit? = none) : openAt (y :: h) path x = openAt h path x := by
  rw [openAt, List.takeWhile_cons_of_pos (by rw [hpass]; rfl), edits,
    List.filterMap_cons_none hedit]
  rfl

theorem openAt_cons_of_startsAfter {y : Happening} (hstop : y.startsAfter x = true) :
    openAt (y :: h) path x = path := by
  rw [openAt, List.takeWhile_cons_of_neg (by rw [hstop]; exact nofun)]
  rfl

/-! ## A file that is read by itself -/

/-- Only comments are task notes. -/
theorem filterMap_filter_isComment (tags : List String) (file : String) (subject : Option String)
    (trivia : List Trivia) :
    (trivia.filter (·.kind.isComment)).filterMap (TaskNote.ofTrivia? tags file subject) =
      trivia.filterMap (TaskNote.ofTrivia? tags file subject) := by
  rw [List.filterMap_filter]
  refine List.filterMap_congr fun x _ => ?_
  unfold TaskNote.ofTrivia?
  cases x.kind <;> rfl

theorem placed_noteEdits (tags : List String) (file : String) (trivia : List Trivia)
    (subject : Option String) (path : List NamespaceKey) :
    Edit.placed Edit.note? path (Builder.noteEdits tags file trivia subject) =
      (trivia.filter (·.kind.isComment)).filterMap fun x =>
        (TaskNote.ofTrivia? tags file subject x).map (path, ·) := by
  have hplaced : ∀ notes : List TaskNote,
      Edit.placed Edit.note? path (notes.map .note) = notes.map (path, ·) := by
    intro notes
    induction notes with
    | nil => rfl
    | cons n notes ih => exact congrArg ((path, n) :: ·) ih
  rw [Builder.noteEdits, hplaced, ← filterMap_filter_isComment, List.map_filterMap]

/-- A declaration is read from a scanner on, up to the scanner `t`, and more happens later. -/
def declared (tags : List String) (file : String) (s t : Scanner) (place : ReadPoint)
    (declaration : Option Declaration) (moves : List Edit) (later : History) : History :=
  (Builder.noteEdits tags file (s.next.triviaSince s.triviaCount) none).map .edits ++
    .starts place s.next.token :: (moves.map .edits ++
      ((Builder.noteEdits tags file (t.triviaSince s.next.triviaCount)
        (declaration.map Declaration.label)).map .edits ++
        .ends s.next.token t.token declaration :: later))

section Declared

variable {tags : List String} {file : String} {s t : Scanner} {place : ReadPoint}
  {declaration : Option Declaration} {moves : List Edit} {later : History}

theorem declared_append (later' : History) :
    declared tags file s t place declaration moves later ++ later' =
      declared tags file s t place declaration moves (later ++ later') := by
  simp only [declared, List.append_assoc, List.cons_append]

theorem edits_declared : edits (declared tags file s t place declaration moves later) =
    Builder.noteEdits tags file (s.next.triviaSince s.triviaCount) none ++ (moves ++
      (Builder.noteEdits tags file (t.triviaSince s.next.triviaCount)
        (declaration.map Declaration.label) ++ edits later)) := by
  rw [declared, edits_append, edits_map, edits_starts, edits_append, edits_map, edits_append,
    edits_map, edits_ends]

theorem foldl_walk_declared (path : List NamespaceKey) :
    (edits (declared tags file s t place declaration moves later)).foldl Edit.walk path =
      (edits later).foldl Edit.walk (moves.foldl Edit.walk path) := by
  rw [edits_declared, List.foldl_append, List.foldl_append, List.foldl_append,
    Builder.foldl_walk_noteEdits, Builder.foldl_walk_noteEdits]

end Declared

/-- A file is read by itself from a scanner on, where the namespaces of a path are open, and this
happens. -/
inductive Alone (tags : List String) (file : String) :
    Scanner → List NamespaceKey → History → Prop
  /-- The file is left. -/
  | leaves {s : Scanner} {path : List NamespaceKey} (heof : s.next.token.kind = .eof) :
    Alone tags file s path
      ((Builder.noteEdits tags file (s.next.triviaSince s.triviaCount) none).map .edits ++
        [.leaves])
  /-- A declaration is read, and what follows it. -/
  | reads {s t : Scanner} {path : List NamespaceKey} {place : ReadPoint}
    {declaration : Option Declaration} {moves : List Edit} {later : History}
    (hreads : s.next.Reads t) (hmoves : ∀ e ∈ moves, e.note? = none)
    (hlater : Alone tags file t (moves.foldl Edit.walk path) later) :
    Alone tags file s path (declared tags file s t place declaration moves later)

namespace Alone

variable {tags : List String} {file : String} {s : Scanner}

/-- Declarations start and end behind what was read before. -/
theorem first_bounds (h : Alone tags file s path h') (hs : s.Placed) {y : Happening} (hy : y ∈ h')
    {first : Token} (hfirst : first ∈ y.first?) :
    s.position ≤ first.span.start ∧ first.span.start ≤ first.span.stop := by
  -- steps in building the tree have no first token
  have hedits : ∀ {es : List Edit}, y ∈ es.map Happening.edits → first ∉ y.first? := by
    intro es hmem
    obtain ⟨e, -, rfl⟩ := List.mem_map.1 hmem
    exact nofun
  induction h with
  | leaves heof =>
    rcases List.mem_append.1 hy with hy | hy
    · exact absurd hfirst (hedits hy)
    · rw [List.mem_singleton.1 hy] at hfirst
      cases hfirst
  | @reads s t path place declaration moves later hreads hmoves hlater ih =>
    have hnext := hs.next
    have hself : s.position ≤ s.next.token.span.start ∧
        s.next.token.span.start ≤ s.next.token.span.stop :=
      ⟨hs.aligned.position_le_start, hnext.start_le⟩
    rcases List.mem_append.1 hy with hy | hy
    · exact absurd hfirst (hedits hy)
    rcases List.mem_cons.1 hy with rfl | hy
    · cases hfirst
      exact hself
    rcases List.mem_append.1 hy with hy | hy
    · exact absurd hfirst (hedits hy)
    rcases List.mem_append.1 hy with hy | hy
    · exact absurd hfirst (hedits hy)
    rcases List.mem_cons.1 hy with rfl | hy
    · cases hfirst
      exact hself
    · obtain ⟨hstart, hstop⟩ := ih (hreads.placed hnext) hy
      have := hreads.position_le hnext.aligned
      have := hnext.stop_eq
      exact ⟨by omega, hstop⟩

/-- What was read before stands in none of the declarations. -/
theorem subject?_eq_none (h : Alone tags file s path h') (hs : s.Placed)
    (hx : x.span.start < x.span.stop) (hstop : x.span.stop ≤ s.position) :
    subject? h' x = none := by
  rw [subject?, List.findSome?_eq_none_iff]
  intro y hy
  cases y with
  | ends first last declaration =>
    have hbounds := h.first_bounds hs hy rfl
    rw [Happening.holder?, if_neg]
    rintro ⟨hle, -⟩
    omega
  | _ => rfl

/-- Before the next declaration the same namespaces are open. -/
theorem openAt_eq (h : Alone tags file s path h')
    (hstop : x.span.stop ≤ s.next.token.span.start) : openAt h' path x = path := by
  cases h with
  | leaves heof =>
    rw [openAt_edits, Builder.foldl_walk_noteEdits]
    rfl
  | reads hreads hmoves hlater =>
    rw [declared, openAt_edits, Builder.foldl_walk_noteEdits]
    exact openAt_cons_of_startsAfter (decide_eq_true hstop)

section Declared

variable {t : Scanner} {place : ReadPoint} {declaration : Option Declaration} {moves : List Edit}
  {later : History}

variable (hreads : s.next.Reads t) (hs : s.Placed)
  (hlater : Alone tags file t (moves.foldl Edit.walk path) later)

include hreads hs hlater

/-- A comment before a declaration stands in none, and nothing of the declaration is read then. -/
theorem placedNote?_before (hx : x ∈ s.next.triviaSince s.triviaCount) :
    placedNote? tags file path (declared tags file s t place declaration moves later) x =
      (TaskNote.ofTrivia? tags file none x).map (path, ·) := by
  have hbounds := (Scanner.Reads.refl s).next.triviaSince_bounds hs hx
  have hstarts : (Happening.starts place s.next.token).startsAfter x = true :=
    decide_eq_true hbounds.2.2
  have hstart := hs.next.start_le
  have hstop := hs.next.stop_eq
  have hle := hreads.position_le hs.next.aligned
  rw [placedNote?, declared, subject?_edits, subject?_starts, subject?_edits, subject?_edits,
    subject?_ends_of_neg (by omega),
    hlater.subject?_eq_none (hreads.placed hs.next) hbounds.2.1 (by omega), openAt_edits,
    Builder.foldl_walk_noteEdits, openAt_cons_of_startsAfter hstarts]

/-- A comment in a declaration has its label, and the declaration is read then. -/
theorem placedNote?_inside (hx : x ∈ t.triviaSince s.next.triviaCount) :
    placedNote? tags file path (declared tags file s t place declaration moves later) x =
      (TaskNote.ofTrivia? tags file (declaration.map Declaration.label) x).map
        (moves.foldl Edit.walk path, ·) := by
  have ht : t.Placed := hreads.placed hs.next
  have hbounds := hreads.triviaSince_bounds hs.next hx
  have hstart := hs.next.start_le
  have hstop := hs.next.stop_eq
  have htstart := ht.start_le
  have htstop := ht.stop_eq
  have hafter := ht.aligned.position_le_start
  have hstarts : (Happening.starts place s.next.token).startsAfter x = false :=
    decide_eq_false (by omega)
  rw [placedNote?, declared, subject?_edits, subject?_starts, subject?_edits, subject?_edits,
    subject?_ends_of_pos ⟨by omega, by omega⟩, hlater.subject?_eq_none ht hbounds.2.1 (by omega),
    Option.or_none, openAt_edits, Builder.foldl_walk_noteEdits, openAt_cons_of_pass hstarts rfl,
    openAt_edits, openAt_edits, Builder.foldl_walk_noteEdits, openAt_cons_of_pass rfl rfl,
    hlater.openAt_eq (by omega)]

omit hlater in
/-- A comment behind a declaration is left to what happens later. -/
theorem placedNote?_behind (hx : x ∈ t.commentsLeft) :
    placedNote? tags file path (declared tags file s t place declaration moves later) x =
      placedNote? tags file (moves.foldl Edit.walk path) later x := by
  have ht : t.Placed := hreads.placed hs.next
  have hbounds := ht.commentsLeft_bounds hx
  have hstart := hs.next.start_le
  have hstop := hs.next.stop_eq
  have htstart := ht.start_le
  have htstop := ht.stop_eq
  have hle := hreads.position_le hs.next.aligned
  have hstarts : (Happening.starts place s.next.token).startsAfter x = false :=
    decide_eq_false (by omega)
  rw [placedNote?, placedNote?, declared, subject?_edits, subject?_starts, subject?_edits,
    subject?_edits, subject?_ends_of_neg (by omega), openAt_edits, Builder.foldl_walk_noteEdits,
    openAt_cons_of_pass hstarts rfl, openAt_edits, openAt_edits, Builder.foldl_walk_noteEdits,
    openAt_cons_of_pass rfl rfl]

end Declared

/-- **The notes of a file that is read by itself** are those of the comments that are left, each
once and in their order. -/
theorem placed_edits (h : Alone tags file s path h') (hs : s.Placed) :
    Edit.placed Edit.note? path (edits h') =
      s.commentsLeft.filterMap (placedNote? tags file path h') := by
  induction h with
  | @leaves s path heof =>
    have hedits : edits ((Builder.noteEdits tags file (s.next.triviaSince s.triviaCount) none).map
        .edits ++ [.leaves]) =
        Builder.noteEdits tags file (s.next.triviaSince s.triviaCount) none := by
      rw [edits_append, edits_map]
      exact List.append_nil _
    rw [hedits, placed_noteEdits, Scanner.commentsLeft_of_eof heof]
    refine List.filterMap_congr fun x hx => ?_
    rw [placedNote?, subject?_edits, openAt_edits, Builder.foldl_walk_noteEdits]
    rfl
  | @reads s t path place declaration moves later hreads hmoves hlater ih =>
    -- the comments that are left stand before the declaration, in it, or behind it
    have hfirst : s.Reads s.next := (Scanner.Reads.refl s).next
    rw [edits_declared, Edit.placed_append, Edit.placed_append, Edit.placed_append,
      Builder.foldl_walk_noteEdits, Builder.foldl_walk_noteEdits, Edit.placed_eq_nil _ hmoves,
      List.nil_append, ih (hreads.placed hs.next), placed_noteEdits, placed_noteEdits, hfirst.commentsLeft_eq,
      hreads.commentsLeft_eq, List.filterMap_append, List.filterMap_append,
      List.filterMap_congr fun x hx =>
        placedNote?_before hreads hs hlater (List.mem_filter.1 hx).1,
      List.filterMap_congr fun x hx =>
        placedNote?_inside hreads hs hlater (List.mem_filter.1 hx).1,
      List.filterMap_congr fun x hx => placedNote?_behind hreads hs hx]

end Alone

end History

/-! ## The run of a source -/

namespace Run

/-- All that happens until a run is finished or fails. -/
def history (files : SourceFiles) (r : Run) : History :=
  r.happenings (.ofFiles files) ++
    match _h : r.step files with
    | .reading r' => r'.history files
    | _ => []
termination_by (r.session.unvisited files, r.work)
decreasing_by exact step_decreases _h

theorem history_eq (files : SourceFiles) (r : Run) :
    r.history files = r.happenings (.ofFiles files) ++
      match r.step files with
      | .reading r' => r'.history files
      | _ => [] := by
  rw [history]
  congr 1
  split
  next r' hstep => rw [hstep]
  next hstep =>
    cases h : r.step files with
    | reading r' => exact absurd h (hstep r')
    | _ => rfl

/-- Nothing happens any more in a run in which no file is open. -/
theorem history_of_files_nil {files : SourceFiles} {r : Run} (h : r.files = []) :
    r.history files = [] := by
  rw [history_eq, step_of_files_nil files h, happenings, h]
  show [] ++ (r.advance files.resolve).happenings (.ofFiles files) ++ [] = []
  rw [advance_of_files_nil _ h]
  rfl

/-- What happens in a number of rounds. -/
def happened (files : SourceFiles) : Nat → Run → History
  | 0, _ => []
  | n + 1, r => r.happenings (.ofFiles files) ++
    match r.step files with
    | .reading r' => happened files n r'
    | _ => []

/-- A run is over when no file is open. -/
theorem complete_of_rounds {files : SourceFiles} {n : Nat} {r r' : Run}
    (h : rounds files n r = some r') (hfiles : r'.files = []) :
    r.complete files = (none, r'.session) ∧ r.history files = happened files n r := by
  induction n generalizing r with
  | zero =>
    cases h
    refine ⟨?_, history_of_files_nil hfiles⟩
    rw [complete_eq, step, advance, hfiles]
  | succ n ih =>
    obtain ⟨r₁, hstep, hrounds⟩ := rounds_succ_eq_some.1 h
    obtain ⟨hcomplete, hhistory⟩ := ih hrounds
    rw [complete_eq, history_eq, happened, hstep]
    exact ⟨hcomplete, congrArg (r.happenings _ ++ ·) hhistory⟩

variable {resolve : String → Location} {session : Session} {f : OpenFile} {outer : List OpenFile}

theorem files_follow (path : String) (site : IncludeSite) :
    ∀ files ∈ (follow resolve path site session f outer).files?, files = f :: outer := by
  unfold follow
  split
  · exact fun _ h => (Option.some.inj h).symm
  · split
    · exact nofun
    · exact fun _ h => (Option.some.inj h).symm

theorem files_declare (declaration : Option Declaration) (first : Scanner) :
    ∀ files ∈ (declare resolve declaration first session f outer).files?, files = f :: outer := by
  unfold declare
  dsimp only
  split
  · exact fun _ h => (Option.some.inj h).symm
  · split
    · exact files_follow _ _
    · exact fun _ h => (Option.some.inj h).symm

/-- What happens in a round that reads a declaration and does not fail. -/
theorem happenings_of_reads (resolve : String → Location) (session : Session)
    (outer : List OpenFile) (hne : f.scanner.next.token.kind ≠ .eof)
    (hok : ∀ failure s, readFile resolve session f outer ≠ .over (.failed failure s)) :
    ∃ (t : Scanner) (declaration : Option Declaration) (moves : List Edit),
      (∃ b b', recognize ⟨f.scanner.next, b⟩ = .ok declaration ⟨t, b'⟩) ∧
      (∀ e ∈ moves, e.note? = none) ∧
      (∀ files ∈ (readFile resolve session f outer).files?,
        files = { f with scanner := t } :: outer) ∧
      f.happenings session =
        History.declared session.options.tags f.name f.scanner t f.place declaration moves [] := by
  unfold History.declared
  unfold readFile OpenFile.happenings at *
  dsimp only at *
  rw [if_neg hne] at hok ⊢
  rw [if_neg hne]
  have hoptions := Session.options_takeDoc
    (session.harvest f.name (f.scanner.next.triviaSince f.scanner.triviaCount) none) f.name
    f.scanner.next.token.line (f.scanner.next.triviaSince f.scanner.triviaCount)
  rw [Session.options_harvest] at hoptions
  rcases hdoc : (session.harvest f.name (f.scanner.next.triviaSince f.scanner.triviaCount)
    none).takeDoc f.name f.scanner.next.token.line
    (f.scanner.next.triviaSince f.scanner.triviaCount) with ⟨fault | ⟨⟩, s⟩
  · rw [hdoc] at hok
    exact absurd rfl (hok _ _)
  rw [hdoc] at hok hoptions
  dsimp only at hok hoptions ⊢
  unfold readDeclaration OpenFile.reading at *
  cases hread : recognize ⟨f.scanner.next, s.builder⟩ with
  | error rejection desk =>
    rw [hread] at hok
    exact absurd rfl (hok _ _)
  | ok declaration desk =>
    rw [hread] at hok
    dsimp only at hok ⊢
    refine ⟨desk.scanner, declaration, Builder.namespaceEdits f.scanner.next ++
      (declaration.map fun d => .entry ⟨d, f.scanner.next.token.line, s.pendingDoc⟩).toList,
      ⟨s.builder, desk.builder, hread⟩, ?_, ?_, ?_⟩
    · intro e he
      rcases List.mem_append.1 he with he | he
      · exact (Builder.adds_nothing_of_mem_namespaceEdits he).2
      · cases declaration with
        | none => cases he
        | some d =>
          rw [List.mem_singleton.1 he]
          rfl
    · exact files_declare declaration f.scanner.next
    · rw [hoptions, List.map_append]
      cases declaration <;> simp [List.append_assoc]

variable {files : SourceFiles} {r r' : Run}

/-- What happens in a round that goes on tells what the run becomes. -/
theorem becomes_step (hr : ∀ f ∈ r.files, f.Reached) (hstep : r.step files = .reading r') :
    r.Becomes r' (r.happenings (.ofFiles files)) ∧ ∀ f ∈ r'.files, f.Reached := by
  have hround := Course.becomes_round (c := ⟨r, [], []⟩) hr (.ofFiles files)
  have hstands := Course.stands_round ⟨r, [], []⟩ files
  rw [hstep] at hstands
  rw [hstands] at hround
  exact hround

/-- What happens until a run is over tells what the session becomes. -/
theorem becomes_complete (files : SourceFiles) (hr : ∀ f ∈ r.files, f.Reached) :
    r.session.Becomes (r.complete files).2 (r.history files) := by
  induction r using Run.complete.induct files with
  | case1 r s hstep | case2 r failure s hstep =>
    have hbecomes := (Course.becomes_round (c := ⟨r, [], []⟩) hr (.ofFiles files)).1.session
    have hstands := Course.stands_round ⟨r, [], []⟩ files
    rw [hstep] at hstands
    rw [hstands] at hbecomes
    rw [complete_eq, history_eq, hstep, List.append_nil]
    exact hbecomes
  | case3 r r' hstep ih =>
    obtain ⟨hbecomes, hreached⟩ := becomes_step hr hstep
    rw [complete_eq, history_eq, hstep]
    exact hbecomes.session.trans (ih hreached)

/-- After some rounds the open files are still read from their start. -/
theorem reached_rounds {n : Nat} (hr : ∀ f ∈ r.files, f.Reached)
    (hrounds : rounds files n r = some r') : ∀ f ∈ r'.files, f.Reached := by
  induction n generalizing r with
  | zero =>
    cases hrounds
    exact hr
  | succ n ih =>
    obtain ⟨r₁, hstep, hrounds⟩ := rounds_succ_eq_some.1 hrounds
    exact ih (becomes_step hr hstep).2 hrounds

theorem reached_ofSource (s : Session) (files : SourceFiles) (name source : String) :
    ∀ f ∈ (ofSource s files name source).files, f.Reached := by
  intro f hf
  rw [List.mem_singleton.1 hf]
  exact OpenFile.reached_start _ _ _

/-- A round that goes on reads on in the file at hand, or it opens another file. -/
theorem readFile_of_step (hfiles : r.files = f :: outer) (hstep : r.step files = .reading r') :
    (readFile files.resolve r.session f outer = .over (.reading r') ∧
      r.happenings (.ofFiles files) = f.happenings r.session) ∨
    ∃ (q : Request) (r₁ : Run) (text : String),
      readFile files.resolve r.session f outer = .wanting q r₁ ∧
      r'.files = q.openFile text :: r₁.files ∧
      r.happenings (.ofFiles files) =
        f.happenings r.session ++ [.opens (q.openFile text).name text] := by
  unfold happenings
  unfold step at hstep
  dsimp only [Loader.ofFiles]
  rw [hfiles, advance_of_files _ hfiles]
  rw [advance_of_files _ hfiles] at hstep
  dsimp only
  by_cases hcancelled : r.session.isCancelled = true
  · rw [if_pos hcancelled] at hstep
    cases hstep
  · rw [if_neg hcancelled] at hstep
    rw [if_neg hcancelled, if_neg hcancelled]
    generalize readFile files.resolve r.session f outer = stage at hstep ⊢
    rcases stage with step | ⟨q, r₁⟩
    · cases hstep
      exact Or.inl ⟨rfl, List.append_nil _⟩
    · unfold Request.answer at hstep
      dsimp only at hstep
      split at hstep
      · cases hstep
      next text htext =>
        refine Or.inr ⟨q, r₁, text, rfl, ?_, ?_⟩
        · cases hstep
          rfl
        · unfold Stage.happenings Request.happenings
          dsimp only
          rw [htext]

/-- **A run that includes nothing** has the history of a file that is read by itself. -/
theorem alone_history (hfiles : r.files = [f]) (hf : f.Reached)
    (hok : (r.complete files).1 = none) (halone : ∀ x ∈ r.history files, x.isOpening = false) :
    History.Alone r.session.options.tags f.name f.scanner r.session.builder.path
      (r.history files) := by
  induction r using Run.complete.induct files generalizing f with
  | case1 r s hstep => exact absurd hstep (step_ne_finished hfiles s)
  | case2 r failure s hstep =>
    rw [complete_eq, hstep] at hok
    cases hok
  | case3 r r' hstep ih =>
    rw [complete_eq, hstep] at hok
    rw [history_eq, hstep] at halone ⊢
    -- the round includes nothing, since that would open a file
    obtain ⟨hread, hhappenings⟩ := (readFile_of_step hfiles hstep).resolve_right (by
      rintro ⟨q, r₁, text, -, -, hopens⟩
      have hmem : Happening.opens (q.openFile text).name text ∈ r.happenings (.ofFiles files) := by
        rw [hopens]
        exact List.mem_append_right _ (List.mem_singleton_self _)
      cases halone _ (List.mem_append_left _ hmem))
    have hlater : ∀ x ∈ r'.history files, x.isOpening = false := fun x hx =>
      halone x (List.mem_append_right _ hx)
    rw [hhappenings]
    by_cases heof : f.scanner.next.token.kind = .eof
    · rw [readFile_of_eof heof] at hread
      have hnil : r'.history files = [] := by
        cases hread
        exact history_of_files_nil rfl
      rw [OpenFile.happenings, if_pos heof]
      dsimp only
      rw [hnil, List.append_nil]
      exact .leaves heof
    · obtain ⟨t, declaration, moves, ⟨b, b', hrecognize⟩, hmoves, hgoes, hround⟩ :=
        happenings_of_reads files.resolve r.session [] heof fun failure s h => by
          rw [hread] at h
          cases h
      have hreads : f.scanner.next.Reads t := reads_recognize hrecognize
      obtain ⟨files', hbecomes, -⟩ := comesTo_readFile files.resolve r.session [] hf
      rw [hread] at hgoes hbecomes
      have hfiles' : r'.files = [{ f with scanner := t }] := hgoes _ rfl
      have hreached : OpenFile.Reached { f with scanner := t } :=
        hf.readsOn ⟨t, (Scanner.Reads.refl _).next.trans hreads, rfl⟩
      have hpath : r'.session.builder.path =
          moves.foldl Edit.walk r.session.builder.path := by
        rw [show r'.session.builder = _ from hbecomes.session.builder_eq, Builder.path_foldl,
          hround, History.foldl_walk_declared]
        rfl
      have hoptions : r'.session.options = r.session.options := hbecomes.session.options_eq
      have hrest := ih hfiles' hreached hok hlater
      rw [hpath, hoptions] at hrest
      rw [hround, History.declared_append]
      exact .reads hreads hmoves hrest

end Run

/-! ## Task notes -/

namespace Session

/-- What happens as a source is read. -/
def sourceHistory (s : Session) (files : SourceFiles) (name source : String) : History :=
  .opens name source :: (Run.ofSource s files name source).history files

/-- What happens as a source is read tells what the session becomes. -/
theorem becomes_readSource (s : Session) (files : SourceFiles) (name source : String) :
    s.Becomes (s.readSource files name source).2 (s.sourceHistory files name source) :=
  ((Becomes.visit s (files.resolve name).key).trans
    (.of_idle (x := .opens name source) rfl rfl rfl _)).trans
    (Run.becomes_complete files (Run.reached_ofSource s files name source))

/-- **No task note is lost or counted twice.**  Let a source be read without a failure, and let no
other file be opened.  The task notes that are harvested are those of the comments of the source,
each once and in their order; each has the label of the declaration that it stands in, and is stored
in the namespace that is open when every declaration that begins before it is read. -/
theorem notes_readSource {s : Session} {files : SourceFiles} {name source : String}
    (hok : (s.readSource files name source).1 = none)
    (halone : ∀ x ∈ (s.sourceHistory files name source).tail, x.isOpening = false) :
    let h := s.sourceHistory files name source
    let s' := (s.readSource files name source).2
    let notes := (Scanner.commentsOf source).filterMap
      (History.placedNote? s.options.tags name s.builder.path h)
    s'.builder = s.builder.after h.edits ∧
      h.edits.filterMap Edit.note? = notes.map Prod.snd ∧
      ∀ path, (s'.tree.level path).notes.toList = (s.tree.level path).notes.toList ++
        (notes.filter (·.1 = path)).map Prod.snd := by
  intro h s' notes
  have hvisit := Becomes.visit s (files.resolve name).key
  have hbuilder : (s.visit (files.resolve name).key).builder = s.builder := hvisit.builder_eq
  have hoptions : (s.visit (files.resolve name).key).options = s.options := hvisit.options_eq
  have hreached := OpenFile.reached_start name source (Path.parent? name)
  have htree : s'.builder = s.builder.after h.edits :=
    (becomes_readSource s files name source).builder_eq
  -- that the file is opened tells nothing about its comments
  have hopens : notes = (Scanner.commentsOf source).filterMap
      (History.placedNote? s.options.tags name s.builder.path
        ((Run.ofSource s files name source).history files)) :=
    List.filterMap_congr fun x _ => rfl
  have hhistory := Run.alone_history rfl hreached hok halone
  have hplaced : Edit.placed Edit.note? s.builder.path h.edits = notes := by
    have hall := hhistory.placed_edits (Scanner.placed_ofString source)
    rw [hbuilder, hoptions] at hall
    rw [hopens, ← Scanner.commentsLeft_ofString]
    exact hall
  refine ⟨htree, ?_, fun path => ?_⟩
  · rw [← hplaced, Edit.map_snd_placed]
  · rw [← hplaced, ← Edit.addedFrom_eq, tree, htree, Builder.notes_after]
    rfl

/-- Notes before a namespace, in its head, in a declaration and behind all. -/
theorem notes_readSource_namespace :
    ((start .standard).readSource (.ofList []) "m.acs"
        "// TODO: a\nnamespace A // TODO: b\n\x7b int x // TODO: c\n; \x7d\n// TODO: d").1 = none ∧
      (∀ x ∈ ((start .standard).sourceHistory (.ofList []) "m.acs"
        "// TODO: a\nnamespace A // TODO: b\n\x7b int x // TODO: c\n; \x7d\n// TODO: d").tail,
        x.isOpening = false) ∧
      (((start .standard).readSource (.ofList []) "m.acs"
        "// TODO: a\nnamespace A // TODO: b\n\x7b int x // TODO: c\n; \x7d\n// TODO: d").2.tree.level
          [⟨false, some "A"⟩]).notes.toList =
        [⟨"TODO", "b", "m.acs", 2, none⟩, ⟨"TODO", "c", "m.acs", 3, some "int x"⟩] := by
  have hrounds : (Run.rounds (.ofList []) 4 (.ofSource (start .standard) (.ofList []) "m.acs"
      "// TODO: a\nnamespace A // TODO: b\n\x7b int x // TODO: c\n; \x7d\n// TODO: d")).map
      (·.files.length) = some 0 := by
    decide +kernel
  obtain ⟨r, hrounds, hfiles⟩ := Option.map_eq_some_iff.1 hrounds
  obtain ⟨hcomplete, hhistory⟩ := Run.complete_of_rounds hrounds (List.length_eq_zero_iff.1 hfiles)
  have hok : ((start .standard).readSource (.ofList []) "m.acs"
      "// TODO: a\nnamespace A // TODO: b\n\x7b int x // TODO: c\n; \x7d\n// TODO: d").1 = none :=
    congrArg Prod.fst hcomplete
  have halone : ∀ x ∈ ((start .standard).sourceHistory (.ofList []) "m.acs"
      "// TODO: a\nnamespace A // TODO: b\n\x7b int x // TODO: c\n; \x7d\n// TODO: d").tail,
      x.isOpening = false := by
    rw [sourceHistory, hhistory]
    decide +kernel
  obtain ⟨-, -, hnotes⟩ := notes_readSource hok halone
  refine ⟨hok, halone, (hnotes [⟨false, some "A"⟩]).trans ?_⟩
  rw [sourceHistory, hhistory]
  decide +kernel

end Session

end AcsOutline
