import AcsOutline.Proofs.Grammar.Recognition
import AcsOutline.Session.Completion

/-!
# What a round does

A round of a run reads on in the innermost file, leaves it, or enters a file that it includes
(`Run.Turns`); the files around the innermost one stay as they are.  Over a whole run the
outermost file is only read on (`Run.outermost_suffix`), and no file that was visited is
forgotten.
-/

namespace AcsOutline

/-- Two sessions have read the same files, and both are to go on or both are to stop. -/
structure Session.Continues (s s' : Session) : Prop where
  visited_eq : s.visited = s'.visited
  isCancelled_eq : s.isCancelled = s'.isCancelled

theorem Session.mem_visited_visit {s : Session} {key : String} (h : key ∈ s.visited)
    (new : String) : key ∈ (s.visit new).visited := by
  unfold visit
  split
  · exact h
  · exact Array.mem_push.2 (Or.inl h)

theorem Session.mem_visited_visit_self (s : Session) (key : String) :
    key ∈ (s.visit key).visited := by
  unfold visit
  split
  next h => simpa using h
  · exact Array.mem_push_self

/-- The run that reads a source. -/
def Run.ofSource (s : Session) (files : SourceFiles) (name source : String) : Run :=
  ⟨s.visit (files.resolve name).key, [.start name source (Path.parent? name)]⟩

theorem Session.readSource_eq (s : Session) (files : SourceFiles) (name source : String) :
    s.readSource files name source = (Run.ofSource s files name source).complete files := rfl

namespace Session.Continues

variable {s t u : Session}

theorem refl (s : Session) : s.Continues s :=
  ⟨rfl, rfl⟩

theorem trans (h : u.Continues t) (h' : t.Continues s) : u.Continues s :=
  ⟨h.visited_eq.trans h'.visited_eq, h.isCancelled_eq.trans h'.isCancelled_eq⟩

theorem harvest (s : Session) (file : String) (trivia : List Trivia) (subject : Option String) :
    (s.harvest file trivia subject).Continues s := by
  obtain ⟨_, h⟩ := s.exists_harvest_eq file trivia subject
  rw [h]
  exact ⟨rfl, rfl⟩

theorem takeDoc (s : Session) (file : String) (line : Nat) (trivia : List Trivia) :
    (s.takeDoc file line trivia).2.Continues s := by
  obtain ⟨_, _, h⟩ := s.exists_takeDoc_eq file line trivia
  rw [h]
  exact ⟨rfl, rfl⟩

end Session.Continues

/-- What is left after tokens are read is an end of what was left before them. -/
theorem Scanner.Reads.rest_suffix {s t : Scanner} (h : s.Reads t) : t.rest <:+ s.rest := by
  induction h with
  | refl s => exact List.suffix_refl _
  | next _ ih => exact (rest_next_suffix _).trans ih
  | breaks _ _ ih ih' => exact ih'.trans ih

/-- `g` is the file `f`, read on. -/
def OpenFile.ReadsOn (f g : OpenFile) : Prop :=
  ∃ u, f.scanner.Reads u ∧ g = { f with scanner := u }

theorem OpenFile.ReadsOn.refl (f : OpenFile) : f.ReadsOn f :=
  ⟨f.scanner, .refl _, rfl⟩

theorem OpenFile.ReadsOn.trans {f g h : OpenFile} (hg : f.ReadsOn g) (hh : g.ReadsOn h) :
    f.ReadsOn h := by
  obtain ⟨u, hu, rfl⟩ := hg
  obtain ⟨v, hv, rfl⟩ := hh
  exact ⟨v, hu.trans hv, rfl⟩

/-- What a round can come to in a file `f` with the files `outer` around it. -/
inductive Stage.Turns (session : Session) (f : OpenFile) (outer : List OpenFile) : Stage → Prop where
  /-- The file is left. -/
  | left {s : Session} (hs : s.Continues session) :
    Turns session f outer (.over (.reading ⟨s, outer⟩))
  /-- A declaration of the file is read. -/
  | read {s : Session} (hs : s.Continues session) {g : OpenFile} (hg : f.ReadsOn g) :
    Turns session f outer (.over (.reading ⟨s, g :: outer⟩))
  | failed (failure : Failure) {s : Session} (hs : s.Continues session) :
    Turns session f outer (.over (.failed failure s))
  /-- An include of the file is read. -/
  | wanting (q : Request) {s : Session} (hs : s.Continues session) {g : OpenFile}
    (hg : f.ReadsOn g) : Turns session f outer (.wanting q ⟨s, g :: outer⟩)

/-- What a file comes to that is read on, the file comes to. -/
theorem Stage.Turns.of_readsOn {session : Session} {f f' : OpenFile} {outer : List OpenFile}
    {stage : Stage} (h : stage.Turns session f' outer) (hf : f.ReadsOn f') :
    stage.Turns session f outer := by
  cases h with
  | left hs => exact .left hs
  | read hs hg => exact .read hs (hf.trans hg)
  | failed failure hs => exact .failed failure hs
  | wanting q hs hg => exact .wanting q hs (hf.trans hg)

namespace Run

variable {resolve : String → Location} {session session' : Session} {f g : OpenFile}
  {outer : List OpenFile}

theorem turns_follow (path : String) (site : IncludeSite) (hs : session'.Continues session)
    (hg : f.ReadsOn g) :
    (follow resolve path site session' g outer).Turns session f outer := by
  unfold follow
  split
  · exact .read hs hg
  · split
    · exact .failed _ hs
    · exact .wanting _ hs hg

theorem turns_declare (resolve : String → Location) (outer : List OpenFile)
    (declaration : Option Declaration) (first : Scanner)
    (hs : session'.Continues session) (hg : f.ReadsOn g) :
    (declare resolve declaration first session' g outer).Turns session f outer := by
  unfold declare
  dsimp only
  split
  · exact .read ((Session.Continues.harvest _ _ _ _).trans hs) hg
  next d =>
    have hadded : (session'.addDeclaration d first.token.line).Continues session :=
      ⟨hs.visited_eq, hs.isCancelled_eq⟩
    split
    · exact turns_follow _ _ ((Session.Continues.harvest _ _ _ _).trans hadded) hg
    · exact .read ((Session.Continues.harvest _ _ _ _).trans hadded) hg

theorem turns_readDeclaration {first : Scanner} (hs : session'.Continues session)
    (hfirst : f.scanner.Reads first) :
    (readDeclaration resolve first session' f outer).Turns session f outer := by
  unfold readDeclaration
  split
  · exact .failed _ ⟨hs.visited_eq, hs.isCancelled_eq⟩
  next h =>
    exact turns_declare _ _ _ _ ⟨hs.visited_eq, hs.isCancelled_eq⟩
      ⟨_, hfirst.trans (reads_recognize h), rfl⟩

/-- A run in which no file is open is finished. -/
theorem advance_of_files_nil {r : Run} (resolve : String → Location) (h : r.files = []) :
    r.advance resolve = .over (.finished r.session) := by
  unfold advance
  rw [h]

theorem step_of_files_nil {r : Run} (files : SourceFiles) (h : r.files = []) :
    r.step files = .finished r.session := by
  unfold step
  rw [advance_of_files_nil _ h]

theorem advance_of_files {r : Run} (resolve : String → Location) (h : r.files = f :: outer) :
    r.advance resolve =
      if r.session.isCancelled then
        .over (.failed (f.failure .cancelled f.scanner.line none) r.session)
      else readFile resolve r.session f outer := by
  unfold advance
  rw [h]

theorem readFile_of_eof (h : f.scanner.next.token.kind = .eof) :
    readFile resolve session f outer = .over (.reading ⟨session.harvest f.name
      (f.scanner.next.triviaSince f.scanner.triviaCount) none, outer⟩) :=
  if_pos h

/-- Where the file is not at its end, the round goes on from its next token. -/
theorem turns_readFile_next (resolve : String → Location) (session : Session)
    (outer : List OpenFile) (h : f.scanner.next.token.kind ≠ .eof) :
    (readFile resolve session f outer).Turns session { f with scanner := f.scanner.next } outer := by
  unfold readFile
  dsimp only
  rw [if_neg h]
  have hharvest := Session.Continues.harvest session f.name
    (f.scanner.next.triviaSince f.scanner.triviaCount) none
  have hs := Session.Continues.takeDoc
    (session.harvest f.name (f.scanner.next.triviaSince f.scanner.triviaCount) none)
    f.name f.scanner.next.token.line (f.scanner.next.triviaSince f.scanner.triviaCount)
  split
  next hdoc =>
    rw [hdoc] at hs
    exact .failed _ (hs.trans hharvest)
  next hdoc =>
    rw [hdoc] at hs
    exact turns_readDeclaration (f := { f with scanner := f.scanner.next }) (hs.trans hharvest)
      (.refl _)

theorem turns_readFile (resolve : String → Location) (session : Session) (f : OpenFile)
    (outer : List OpenFile) : (readFile resolve session f outer).Turns session f outer := by
  by_cases heof : f.scanner.next.token.kind = .eof
  · rw [readFile_of_eof heof]
    exact .left (Session.Continues.harvest _ _ _ _)
  · exact (turns_readFile_next resolve session outer heof).of_readsOn
      ⟨_, (Scanner.Reads.refl _).next, rfl⟩

/-- A round that goes on was taken in a file, in a session that is not cancelled. -/
theorem turns_advance (resolve : String → Location) {r : Run} (h : ∀ s, r.advance resolve ≠ .over (.finished s))
    (h' : ∀ failure s, r.advance resolve ≠ .over (.failed failure s)) :
    ∃ f outer, r.files = f :: outer ∧ r.session.isCancelled = false ∧
      (r.advance resolve).Turns r.session f outer := by
  cases hfiles : r.files with
  | nil => exact absurd (advance_of_files_nil resolve hfiles) (h r.session)
  | cons f outer =>
    rw [advance_of_files resolve hfiles] at h' ⊢
    cases hcancelled : r.session.isCancelled with
    | true =>
      rw [hcancelled, if_pos rfl] at h'
      exact absurd rfl (h' _ _)
    | false => exact ⟨f, outer, rfl, rfl, turns_readFile _ _ _ _⟩

/-- While a file is open, a run is not finished. -/
theorem step_ne_finished {files : SourceFiles} {r : Run} (hfiles : r.files = f :: outer)
    (s : Session) : r.step files ≠ .finished s := by
  intro hstep
  unfold step at hstep
  rw [advance_of_files _ hfiles] at hstep
  by_cases hcancelled : r.session.isCancelled = true
  · rw [if_pos hcancelled] at hstep
    cases hstep
  · rw [if_neg hcancelled] at hstep
    have hturns := turns_readFile files.resolve r.session f outer
    generalize readFile files.resolve r.session f outer = stage at hstep hturns
    cases hturns with
    | wanting q hs hg =>
      unfold Request.answer at hstep
      dsimp only at hstep
      split at hstep <;> cases hstep
    | _ => cases hstep

/-- What a round that goes on has changed: the innermost file was left or read on, or it was
read on and a file that it includes was entered.  No file is forgotten. -/
structure Turned (r r' : Run) (f : OpenFile) (outer : List OpenFile) : Prop where
  files_eq : r.files = f :: outer
  isCancelled_eq : r.session.isCancelled = false
  visited : ∀ key ∈ r.session.visited, key ∈ r'.session.visited
  turned :
    (r'.session.isCancelled = false ∧
      (r'.files = outer ∨ ∃ g, f.ReadsOn g ∧ r'.files = g :: outer)) ∨
    ∃ g inner, f.ReadsOn g ∧ r'.files = inner :: g :: outer

theorem turned_step {files : SourceFiles} {r r' : Run} (h : r.step files = .reading r') :
    ∃ f outer, r.Turned r' f outer := by
  unfold step at h
  have hstage := turns_advance files.resolve (r := r)
    (fun s e => by rw [e] at h; cases h) (fun failure s e => by rw [e] at h; cases h)
  obtain ⟨f, outer, hfiles, hcancelled, hturns⟩ := hstage
  rcases e : r.advance files.resolve with step | ⟨q, r₁⟩
  · rw [e] at h hturns
    dsimp only at h
    subst h
    have hover : ∀ {s : Session} (_ : s.Continues r.session),
        (∀ key ∈ r.session.visited, key ∈ s.visited) ∧ s.isCancelled = false :=
      fun hs => ⟨fun _ hkey => hs.visited_eq ▸ hkey, hs.isCancelled_eq.trans hcancelled⟩
    cases hturns with
    | left hs =>
      exact ⟨f, outer, hfiles, hcancelled, (hover hs).1, Or.inl ⟨(hover hs).2, Or.inl rfl⟩⟩
    | read hs hg =>
      exact ⟨f, outer, hfiles, hcancelled, (hover hs).1,
        Or.inl ⟨(hover hs).2, Or.inr ⟨_, hg, rfl⟩⟩⟩
  · rw [e] at h hturns
    cases hturns with
    | @wanting _ s hs g hg =>
      unfold Request.answer at h
      dsimp only at h
      split at h
      · cases h
      · cases h
        refine ⟨f, outer, hfiles, hcancelled, fun key hkey => ?_, Or.inr ⟨g, _, hg, rfl⟩⟩
        refine Session.mem_visited_visit ?_ _
        split <;> exact hs.visited_eq ▸ hkey

namespace Turned

variable {r r' : Run}

/-- After a round a session is only cancelled where a file was entered. -/
theorem isCancelled_eq_false (h : r.Turned r' f outer) (hfiles : r'.files = [g]) :
    r'.session.isCancelled = false := by
  rcases h.turned with ⟨hs, -⟩ | ⟨g', inner, -, hfiles'⟩
  · exact hs
  · rw [hfiles] at hfiles'
    cases hfiles'

/-- The outermost file was there before, and it is at most read on. -/
theorem outermost_readsOn (h : r.Turned r' f outer) (hlast : r'.files.getLast? = some g) :
    ∃ g', r.files.getLast? = some g' ∧ g'.ReadsOn g := by
  have hcons : ∀ g', f.ReadsOn g' → (g' :: outer).getLast? = some g →
      ∃ g', (f :: outer).getLast? = some g' ∧ g'.ReadsOn g := by
    intro g' hg' hlast
    cases outer with
    | nil =>
      cases hlast
      exact ⟨f, rfl, hg'⟩
    | cons f' outer => exact ⟨g, hlast, .refl g⟩
  rw [h.files_eq]
  rcases h.turned with ⟨-, hfiles | ⟨g', hg', hfiles⟩⟩ | ⟨g', inner, hg', hfiles⟩
  · rw [hfiles] at hlast
    cases outer with
    | nil => cases hlast
    | cons f' outer => exact ⟨g, hlast, .refl g⟩
  · exact hcons g' hg' (hfiles ▸ hlast)
  · exact hcons g' hg' (by rw [hfiles] at hlast; exact hlast)

end Turned

/-! ## Several rounds -/

/-- A run after a number of rounds, as long as each of them goes on. -/
def rounds (files : SourceFiles) : Nat → Run → Option Run
  | 0, r => some r
  | n + 1, r =>
    match r.step files with
    | .reading r' => rounds files n r'
    | _ => none

variable {files : SourceFiles} {n : Nat} {r r' : Run}

theorem rounds_succ_eq_some :
    rounds files (n + 1) r = some r' ↔ ∃ r₁, r.step files = .reading r₁ ∧
      rounds files n r₁ = some r' := by
  rw [rounds]
  cases r.step files <;> simp

/-- What is visited before some rounds is visited after them. -/
theorem mem_visited_rounds (h : rounds files n r = some r') {key : String}
    (hkey : key ∈ r.session.visited) : key ∈ r'.session.visited := by
  induction n generalizing r with
  | zero =>
    cases h
    exact hkey
  | succ n ih =>
    obtain ⟨r₁, hstep, h⟩ := rounds_succ_eq_some.1 h
    obtain ⟨f, outer, hturned⟩ := turned_step hstep
    exact ih h (hturned.visited key hkey)

/-- After some rounds the outermost file is read on. -/
theorem outermost_rounds (h : rounds files n r = some r') (hlast : r'.files.getLast? = some g) :
    ∃ g', r.files.getLast? = some g' ∧ g'.ReadsOn g := by
  induction n generalizing r with
  | zero =>
    cases h
    exact ⟨g, hlast, .refl g⟩
  | succ n ih =>
    obtain ⟨r₁, hstep, h⟩ := rounds_succ_eq_some.1 h
    obtain ⟨g₁, hlast₁, hg₁⟩ := ih h
    obtain ⟨f, outer, hturned⟩ := turned_step hstep
    obtain ⟨g', hlast', hg'⟩ := hturned.outermost_readsOn hlast₁
    exact ⟨g', hlast', hg'.trans hg₁⟩

/-- After some rounds the session is not cancelled, unless a file was just entered. -/
theorem isCancelled_rounds (h : rounds files (n + 1) r = some r') (hfiles : r'.files = [g]) :
    r'.session.isCancelled = false := by
  induction n generalizing r with
  | zero =>
    obtain ⟨r₁, hstep, ⟨⟩⟩ := rounds_succ_eq_some.1 h
    obtain ⟨f, outer, hturned⟩ := turned_step hstep
    exact hturned.isCancelled_eq_false hfiles
  | succ n ih =>
    obtain ⟨r₁, hstep, h⟩ := rounds_succ_eq_some.1 h
    exact ih h

theorem complete_eq (files : SourceFiles) (r : Run) :
    r.complete files =
      match r.step files with
      | .finished session => (none, session)
      | .failed failure session => (some failure, session)
      | .reading r' => r'.complete files := by
  rw [complete]
  split <;> rename_i e <;> rw [e]

/-- Some rounds are a beginning of the whole run. -/
theorem complete_rounds (h : rounds files n r = some r') :
    r.complete files = r'.complete files := by
  induction n generalizing r with
  | zero =>
    cases h
    rfl
  | succ n ih =>
    obtain ⟨r₁, hstep, h⟩ := rounds_succ_eq_some.1 h
    rw [complete_eq, hstep]
    exact ih h

end Run

end AcsOutline
