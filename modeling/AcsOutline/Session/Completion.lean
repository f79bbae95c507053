import AcsOutline.Session

/-!
# Completing a run

`Run.complete` repeats the rounds of a run until it is finished or fails.  Each round either
reads on in the files at hand, so that less of them is left (`Run.work`), or enters a file that
was not visited before, of which there are only finitely many (`Run.unvisited`).

`Session.readSource` and `Session.readFile` read a source, or a file, with all that it
includes.
-/

namespace AcsOutline

namespace Session

/-- To harvest changes the tree only. -/
theorem exists_harvest_eq (s : Session) (file : String) (trivia : List Trivia)
    (subject : Option String) :
    ∃ builder, s.harvest file trivia subject = { s with builder } := by
  unfold harvest
  induction trivia generalizing s with
  | nil => exact ⟨s.builder, rfl⟩
  | cons t ts ih =>
    have hcomment : ∃ builder, harvestComment file subject s t = { s with builder } := by
      unfold harvestComment
      split
      · split
        · exact ⟨_, rfl⟩
        · exact ⟨s.builder, rfl⟩
      · exact ⟨s.builder, rfl⟩
    obtain ⟨builder, h⟩ := hcomment
    obtain ⟨builder', h'⟩ := ih (harvestComment file subject s t)
    exact ⟨builder', by rw [List.foldl_cons, h', h]⟩

/-- To take the documentation before a declaration changes nothing but the documentation that waits
and the warnings. -/
theorem exists_takeDoc_eq (s : Session) (file : String) (line : Nat) (trivia : List Trivia) :
    ∃ pendingDoc warnings,
      (s.takeDoc file line trivia).2 = { s with pendingDoc, warnings } := by
  unfold takeDoc
  dsimp only
  split
  · exact ⟨s.pendingDoc, s.warnings, rfl⟩
  · split <;> split <;> exact ⟨_, _, rfl⟩

@[simp]
theorem visited_harvest (s : Session) (file : String) (trivia : List Trivia)
    (subject : Option String) : (s.harvest file trivia subject).visited = s.visited := by
  obtain ⟨_, h⟩ := s.exists_harvest_eq file trivia subject
  rw [h]

theorem visited_takeDoc (s : Session) (file : String) (line : Nat) (trivia : List Trivia) :
    (s.takeDoc file line trivia).2.visited = s.visited := by
  obtain ⟨_, _, h⟩ := s.exists_takeDoc_eq file line trivia
  rw [h]

@[simp]
theorem visited_addDeclaration (s : Session) (d : Declaration) (line : Nat) :
    (s.addDeclaration d line).visited = s.visited := rfl

/-- A file is only asked for where it is new. -/
theorem not_mem_visited_of_request {s : Session} {resolve : String → Location} {path : String}
    {site : Option IncludeSite} {q : Request} (h : s.request resolve path site = .ok q) :
    q.location.key ∉ s.visited := by
  unfold request at h
  split at h
  · cases h
  · split at h
    · cases h
    next hnew =>
      cases h
      simpa using hnew

/-- Files that can be read and were not visited. -/
def unvisited (files : SourceFiles) (s : Session) : Nat :=
  (files.known.filter fun key => key ∉ s.visited).length

theorem unvisited_visit_lt {files : SourceFiles} {s : Session} {key : String}
    (hknown : key ∈ files.known) (hnew : key ∉ s.visited) :
    (s.visit key).unvisited files < s.unvisited files := by
  have hvisit : (s.visit key).visited = s.visited.push key := by
    unfold visit
    rw [if_neg (by simpa using hnew)]
  have hfilter : (files.known.filter fun k => k ∉ (s.visit key).visited) =
      (files.known.filter fun k => k ∉ s.visited).filter fun k => k ≠ key := by
    rw [List.filter_filter]
    refine List.filter_congr fun k _ => ?_
    simp [hvisit, and_comm]
  unfold unvisited
  rw [hfilter, List.length_filter_lt_length_iff_exists]
  exact ⟨key, List.mem_filter.2 ⟨hknown, by simpa using hnew⟩, by simp⟩

end Session

/-- What is left to do in files that are being read: all that is left to read in them, and to
leave each. -/
def OpenFile.work : List OpenFile → Nat
  | [] => 0
  | f :: outer => f.scanner.remaining + 1 + work outer

/-- What is left to do in the files of a run. -/
def Run.work (r : Run) : Nat :=
  OpenFile.work r.files

/-- What a stage leaves to do: either less than `bound` in the files at hand, or a file to
enter that is not among the visited ones. -/
def Stage.Decreases (visited : Array String) (bound : Nat) : Stage → Prop
  | .over (.reading r) => r.session.visited = visited ∧ r.work < bound
  | .over _ => True
  | .wanting q r => r.session.visited = visited ∧ q.location.key ∉ visited

namespace Run

variable (resolve : String → Location) {session : Session} {file : OpenFile}
  {outer : List OpenFile} {visited : Array String} {bound : Nat}

theorem follow_decreases (path : String) (site : IncludeSite) (hv : session.visited = visited)
    (h : (Run.mk session (file :: outer)).work < bound) :
    (follow resolve path site session file outer).Decreases visited bound := by
  unfold follow
  split
  · exact ⟨hv, h⟩
  · split
    · trivial
    next hq => exact ⟨hv, hv ▸ Session.not_mem_visited_of_request hq⟩

theorem declare_decreases (declaration : Option Declaration) (first : Scanner)
    (hv : session.visited = visited) (h : (Run.mk session (file :: outer)).work < bound) :
    (declare resolve declaration first session file outer).Decreases visited bound := by
  unfold declare
  dsimp only
  split
  · exact ⟨by simpa using hv, h⟩
  · split
    · exact follow_decreases resolve _ _ (by simpa using hv) h
    · exact ⟨by simpa using hv, h⟩

theorem readDeclaration_decreases {first : Scanner} (hv : session.visited = visited)
    (h : first.remaining + 1 + OpenFile.work outer < bound) :
    (readDeclaration resolve first session file outer).Decreases visited bound := by
  unfold readDeclaration
  split
  · trivial
  next hr =>
    refine declare_decreases resolve _ _ hv ?_
    have hle := remaining_recognize_le hr
    simp only [work, OpenFile.work]
    dsimp only at hle
    omega

theorem readFile_decreases (hv : session.visited = visited)
    (h : (Run.mk session (file :: outer)).work ≤ bound) :
    (readFile resolve session file outer).Decreases visited bound := by
  simp only [work, OpenFile.work] at h
  unfold readFile
  dsimp only
  split
  · refine ⟨by simpa using hv, ?_⟩
    simp only [work]
    omega
  next hne =>
    have hlt : file.scanner.next.remaining < file.scanner.remaining :=
      Scanner.remaining_next_lt (Or.inr hne)
    split
    · trivial
    next s _ hdoc =>
      refine readDeclaration_decreases resolve ?_ (by omega)
      have hs := congrArg (·.2.visited) hdoc
      dsimp only at hs
      rw [← hs, Session.visited_takeDoc, Session.visited_harvest, hv]

/-- A round leaves less to read in the files at hand, or asks for a new file. -/
theorem advance_decreases (r : Run) :
    (r.advance resolve).Decreases r.session.visited r.work := by
  unfold advance
  split
  · trivial
  next file outer hfiles =>
    split
    · trivial
    · refine readFile_decreases resolve rfl (Nat.le_of_eq ?_)
      simp only [work, hfiles]

/-- A round leaves fewer unvisited files, or as many and less to read in the files at hand. -/
theorem step_decreases {files : SourceFiles} {r r' : Run} (h : r.step files = .reading r') :
    Prod.Lex (· < ·) (· < ·) (r'.session.unvisited files, r'.work)
      (r.session.unvisited files, r.work) := by
  have hd := advance_decreases files.resolve r
  unfold step at h
  split at h
  next s hs =>
    rw [hs, h] at hd
    rw [Session.unvisited, Session.unvisited, hd.1]
    exact Prod.Lex.right _ hd.2
  next q s hs =>
    rw [hs] at hd
    unfold Request.answer at h
    dsimp only at h
    split at h
    · cases h
    next text htext =>
      cases h
      refine Prod.Lex.left _ _ ?_
      have hknown : q.location.key ∈ files.known :=
        files.key_mem_known _ (by rw [Finding.isText, htext]; rfl)
      have hnew : q.location.key ∉ s.session.visited := hd.1 ▸ hd.2
      have hsame : s.session.unvisited files = r.session.unvisited files := by
        rw [Session.unvisited, Session.unvisited, hd.1]
      rw [← hsame]
      split
      · exact Session.unvisited_visit_lt (s := s.session.cancel) hknown hnew
      · exact Session.unvisited_visit_lt hknown hnew

/-- Repeats the rounds of a run until it is finished or fails. -/
def complete (files : SourceFiles) (r : Run) : Option Failure × Session :=
  match _h : r.step files with
  | .finished session => (none, session)
  | .failed failure session => (some failure, session)
  | .reading r' => r'.complete files
termination_by (r.session.unvisited files, r.work)
decreasing_by exact step_decreases _h

end Run

namespace Session

/-- Reads a source with all that it includes, as the file of a given name. -/
def readSource (s : Session) (files : SourceFiles) (name source : String) :
    Option Failure × Session :=
  Run.complete files
    ⟨s.visit (files.resolve name).key, [.start name source (Path.parent? name)]⟩

/-- Reads the file at a path with all that it includes. -/
def readFile (s : Session) (files : SourceFiles) (path : String) : Option Failure × Session :=
  match s.request files.resolve path none with
  | .error failure => (some failure, s)
  | .ok request =>
    match request.answer (files.load request.location) ⟨s, []⟩ with
    | .finished session => (none, session)
    | .failed failure session => (some failure, session)
    | .reading run => run.complete files

/-- Something that a user asks of a session. -/
inductive Call where
  /-- To read a source as the file of a given name. -/
  | source (name text : String)
  /-- To read the file at a path. -/
  | file (path : String)
  | cancel
deriving Inhabited

/-- Does what the user asks. -/
def perform (s : Session) (files : SourceFiles) : Call → Option Failure × Session
  | .source name text => s.readSource files name text
  | .file path => s.readFile files path
  | .cancel => (none, s.cancel)

end Session

end AcsOutline
