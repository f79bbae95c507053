import AcsOutline.Proofs.Distinct
import AcsOutline.Proofs.Session.Includes

/-!
# No file is loaded twice

A `Course` is a session under way: its run, the keys of the files that are open, and an account of
how each file was recorded.  It goes on by `Act`s, each with the loader as it is at that moment; so
a loader may answer differently every time, and there may be no end to what it has.

Whatever the acts, the session refuses exactly the files that are recorded, and records a file that
it loads once, before anything of it is read (`Course.guarded_after`).
-/

namespace AcsOutline

/-- What a loader answers at one moment. -/
structure Loader where
  /-- The location that a written path stands for. -/
  resolve : String → Location
  /-- What is found at a location. -/
  load : Location → Finding

/-- The loader that always answers from the same files. -/
def Loader.ofFiles (files : SourceFiles) : Loader :=
  ⟨files.resolve, files.load⟩

/-- How the file with a key came to be recorded. -/
inductive Event where
  /-- The user gave a source for it. -/
  | source (key : String)
  /-- The user asked for it, and it was loaded. -/
  | file (key : String)
  /-- A file included it, and it was loaded. -/
  | included (key : String)
deriving DecidableEq, Inhabited

namespace Event

/-- The file that is recorded. -/
def key : Event → String
  | .source key | .file key | .included key => key

/-- The file that is loaded. -/
def loaded? : Event → Option String
  | .source _ => none
  | .file key | .included key => some key

end Event

/-- What may happen next in a session. -/
inductive Act where
  /-- The session is asked to stop. -/
  | cancel
  /-- The user gives a source to read as the file of a given name. -/
  | source (loader : Loader) (name text : String)
  /-- The user asks for the file at a path. -/
  | file (loader : Loader) (path : String)
  /-- The next declaration is read. -/
  | round (loader : Loader)

/-- The failure that a step ends a call with, if it does. -/
def Step.failure? : Step → Option Failure
  | .failed failure _ => some failure
  | _ => none

/-- The act that a call begins with. -/
def Act.ofCall (files : SourceFiles) : Session.Call → Act
  | .source name text => .source (.ofFiles files) name text
  | .file path => .file (.ofFiles files) path
  | .cancel => .cancel

/-- A session under way. -/
structure Course where
  run : Run
  /-- The keys of the files that are being read, the innermost first. -/
  nest : List String
  /-- How the files were recorded, in order. -/
  log : List Event

namespace Course

/-- A session in which nothing is read. -/
def idle (s : Session) (log : List Event) : Course :=
  ⟨⟨s, []⟩, [], log⟩

/-- A session that has not begun. -/
def start (options : ReadOptions) : Course :=
  idle (.start options) []

/-- Goes on after a round in the files at hand. -/
def settle (c : Course) : Step → Course
  | .finished s | .failed _ s => idle s c.log
  | .reading r => ⟨r, c.nest.drop (c.nest.length - r.files.length), c.log⟩

/-- Goes on with what is found for a request. -/
def enter (c : Course) (loader : Loader) (q : Request) (r : Run) (event : String → Event) :
    Course :=
  match q.answer (loader.load q.location) r with
  | .finished s | .failed _ s => idle s c.log
  | .reading r' => ⟨r', q.location.key :: c.nest, c.log ++ [event q.location.key]⟩

/-- Does what happens next.  A source or a file is only read where nothing else is being read. -/
def act (c : Course) : Act → Course
  | .cancel => { c with run := { c.run with session := c.run.session.cancel } }
  | .source loader name text =>
    let key := (loader.resolve name).key
    if c.run.files.isEmpty then
      ⟨⟨c.run.session.visit key, [.start name text (Path.parent? name)]⟩, [key],
        c.log ++ [.source key]⟩
    else c
  | .file loader path =>
    if c.run.files.isEmpty then
      match c.run.session.request loader.resolve path none with
      | .error _ => c
      | .ok q => c.enter loader q c.run .file
    else c
  | .round loader =>
    match c.run.advance loader.resolve with
    | .over step => c.settle step
    | .wanting q r => c.enter loader q r .included

/-- Does what happens, one act after the other. -/
def after (c : Course) (acts : List Act) : Course :=
  acts.foldl act c

/-- The files recorded so far, in order. -/
def visited (c : Course) : List String :=
  c.run.session.visited.toList

/-- A file is about to be loaded: the user asks for it, or a file includes it. -/
def Loads (c : Course) (loader : Loader) (q : Request) (r : Run) : Prop :=
  (∃ path, c.run.session.request loader.resolve path none = .ok q ∧ r = c.run) ∨
    c.run.advance loader.resolve = .wanting q r

/-! ## One act -/

/-- What is recorded in a course, and how. -/
structure Recorded (c : Course) : Prop where
  /-- The files are those of the account, each once. -/
  visited_eq : c.visited = (c.log.map Event.key).eraseDups
  nodup : c.visited.Nodup
  /-- No file was loaded twice. -/
  loaded : (c.log.filterMap Event.loaded?).Nodup
  /-- Each open file has its key in the nest. -/
  nest_length : c.nest.length = c.run.files.length
  /-- The open files are recorded. -/
  nest_visited : ∀ key ∈ c.nest, key ∈ c.visited

variable {c : Course} {loader : Loader} {q : Request} {r : Run} {s : Session}

theorem recorded_start (options : ReadOptions) : (start options).Recorded where
  visited_eq := rfl
  nodup := List.nodup_nil
  loaded := List.nodup_nil
  nest_length := rfl
  nest_visited _ h := nomatch h

/-- Whatever is read or left, what is recorded stays. -/
theorem Recorded.of_visited_eq (h : c.Recorded) {nest : List String}
    (hvisited : r.session.visited = c.run.session.visited)
    (hlength : nest.length = r.files.length) (hnest : ∀ key ∈ nest, key ∈ c.nest) :
    (Course.mk r nest c.log).Recorded := by
  have hsame : (Course.mk r nest c.log).visited = c.visited := congrArg Array.toList hvisited
  exact ⟨hsame.trans h.visited_eq, hsame.symm ▸ h.nodup, h.loaded, hlength,
    fun key hkey => hsame.symm ▸ h.nest_visited key (hnest key hkey)⟩

theorem Recorded.idle (h : c.Recorded) (hvisited : s.visited = c.run.session.visited) :
    (Course.idle s c.log).Recorded :=
  h.of_visited_eq hvisited rfl nofun

/-- A file is recorded if it was not, and may be opened then. -/
theorem Recorded.visit (h : c.Recorded) (event : Event) {nest : List String}
    (hvisited : r.session.visited = (s.visit event.key).visited)
    (hs : s.visited = c.run.session.visited) (hnew : ∀ key ∈ event.loaded?, key ∉ c.visited)
    (hlength : nest.length = r.files.length)
    (hnest : ∀ key ∈ nest, key = event.key ∨ key ∈ c.nest) :
    (Course.mk r nest (c.log ++ [event])).Recorded := by
  have hvisit : (Course.mk r nest (c.log ++ [event])).visited =
      if event.key ∈ c.visited then c.visited else c.visited ++ [event.key] := by
    show r.session.visited.toList = _
    rw [hvisited, Session.visit]
    simp only [hs, Array.contains_iff_mem, visited, Array.mem_toList_iff]
    split <;> simp [hs]
  have hkeys : ((c.log ++ [event]).map Event.key).eraseDups =
      if event.key ∈ c.visited then c.visited else c.visited ++ [event.key] := by
    rw [List.map_append, List.map_singleton, eraseDups_concat, h.visited_eq]
  have hmem : ∀ key, key = event.key ∨ key ∈ c.visited →
      key ∈ (Course.mk r nest (c.log ++ [event])).visited := by
    intro key hkey
    rw [hvisit]
    split
    · rename_i hold
      exact hkey.elim (fun e => e ▸ hold) id
    · exact List.mem_append.2 (hkey.elim (fun e => .inr (List.mem_singleton.2 e)) .inl)
  refine ⟨hvisit.trans hkeys.symm, ?_, ?_, hlength, fun key hkey => ?_⟩
  · rw [hvisit, ← hkeys]
    exact nodup_eraseDups _
  · show ((c.log ++ [event]).filterMap Event.loaded?).Nodup
    rw [List.filterMap_append]
    cases event with
    | source key =>
      show (c.log.filterMap Event.loaded? ++ []).Nodup
      rw [List.append_nil]
      exact h.loaded
    | file key | included key =>
      refine nodup_concat h.loaded fun hold => hnew key rfl ?_
      obtain ⟨e, he, hkey⟩ := List.mem_filterMap.1 hold
      rw [h.visited_eq, List.mem_eraseDups]
      refine List.mem_map.2 ⟨e, he, ?_⟩
      cases e <;> simp_all [Event.loaded?, Event.key]
  · exact hmem key ((hnest key hkey).imp id (h.nest_visited key))

/-- A file that is about to be loaded is not recorded, and the files at hand are those of the
course. -/
theorem Recorded.loads (h : c.Recorded) (hq : c.Loads loader q r) :
    r.session.visited = c.run.session.visited ∧ q.location.key ∉ c.visited ∧
      r.files.length = c.nest.length := by
  rcases hq with ⟨path, hrequest, rfl⟩ | hadvance
  · have hnew := Session.not_mem_visited_of_request hrequest
    exact ⟨rfl, fun hmem => hnew (Array.mem_toList_iff.1 hmem), h.nest_length.symm⟩
  · have hdecreases := Run.advance_decreases loader.resolve c.run
    rw [hadvance] at hdecreases
    obtain ⟨f, outer, hfiles, -, hturns⟩ := Run.turns_advance loader.resolve (r := c.run)
      (fun s e => by rw [hadvance] at e; cases e) (fun failure s e => by rw [hadvance] at e; cases e)
    rw [hadvance] at hturns
    cases hturns
    rw [h.nest_length, hfiles]
    exact ⟨hdecreases.1, fun hmem => hdecreases.2 (Array.mem_toList_iff.1 hmem), rfl⟩

/-- What is found is recorded before anything of it is read, unless it cannot be loaded. -/
theorem Recorded.enter (h : c.Recorded) (hq : c.Loads loader q r) {event : String → Event}
    (hkey : ∀ key, (event key).key = key) : (c.enter loader q r event).Recorded := by
  obtain ⟨hvisited, hnew, hlength⟩ := h.loads hq
  unfold Course.enter Request.answer
  generalize loader.load q.location = found
  dsimp only
  have hcancel := (r.session.visited_ite_cancel found.cancels).trans hvisited
  cases hfound : found.content with
  | error fault => exact h.idle hcancel
  | ok text =>
    refine h.visit (event q.location.key) (by rw [hkey]) hcancel (fun key he => ?_) ?_
      fun key hmem => ?_
    · have : key = q.location.key := by
        have := hkey q.location.key
        revert he this
        cases event q.location.key <;> simp_all [Event.loaded?, Event.key]
      exact this ▸ hnew
    · rw [List.length_cons, List.length_cons, hlength]
    · rw [hkey]
      exact List.mem_cons.1 hmem

/-- A round in the files at hand records nothing. -/
theorem Recorded.settle (h : c.Recorded) {resolve : String → Location} {step : Step}
    (hadvance : c.run.advance resolve = .over step) : (c.settle step).Recorded := by
  have hnest := h.nest_length
  cases hfiles : c.run.files with
  | nil =>
    rw [Run.advance_of_files_nil resolve hfiles] at hadvance
    cases hadvance
    exact h.idle rfl
  | cons f outer =>
    rw [Run.advance_of_files resolve hfiles] at hadvance
    split at hadvance
    · cases hadvance
      exact h.idle rfl
    · have hturns := Run.turns_readFile resolve c.run.session f outer
      rw [hadvance] at hturns
      rw [hfiles, List.length_cons] at hnest
      cases hturns with
      | failed failure hs => exact h.idle hs.visited_eq
      | left hs | read hs hg =>
        refine h.of_visited_eq hs.visited_eq ?_ fun key hkey => List.mem_of_mem_drop hkey
        simp only [List.length_drop, List.length_cons]
        omega

/-- **One act keeps the account.** -/
theorem Recorded.act (h : c.Recorded) (a : Act) : (c.act a).Recorded := by
  cases a with
  | cancel => exact h.of_visited_eq rfl h.nest_length fun _ hkey => hkey
  | source loader name text =>
    unfold Course.act
    dsimp only
    split
    · refine h.visit (.source _) rfl rfl nofun rfl fun key hmem => .inl ?_
      exact List.mem_singleton.1 hmem
    · exact h
  | file loader path =>
    unfold Course.act
    dsimp only
    split
    · split
      · exact h
      next q hrequest =>
        exact h.enter (.inl ⟨path, hrequest, rfl⟩) fun _ => rfl
    · exact h
  | round loader =>
    unfold Course.act
    dsimp only
    split
    next step hadvance => exact h.settle hadvance
    next q r hadvance => exact h.enter (.inr hadvance) fun _ => rfl

theorem recorded_after (options : ReadOptions) (acts : List Act) :
    ((start options).after acts).Recorded := by
  have hrun : ∀ {c : Course}, c.Recorded → ∀ acts, (c.after acts).Recorded := by
    intro c h acts
    induction acts generalizing c with
    | nil => exact h
    | cons a acts ih => exact ih (h.act a)
  exact hrun (recorded_start options) acts

/-! ## What a session does -/

/-- The course after a step: nothing is being read any more, or the run of the step goes on. -/
def Stands (c : Course) (log : List Event) : Step → Prop
  | .finished s | .failed _ s => c = idle s log
  | .reading r => c.run = r

theorem stands_enter (c : Course) (loader : Loader) (q : Request) (r : Run)
    (event : String → Event) :
    (c.enter loader q r event).Stands c.log (q.answer (loader.load q.location) r) := by
  unfold enter
  cases q.answer (loader.load q.location) r <;> rfl

theorem stands_round (c : Course) (files : SourceFiles) :
    (c.act (.round (.ofFiles files))).Stands c.log (c.run.step files) := by
  unfold act Run.step
  dsimp only [Loader.ofFiles]
  rcases c.run.advance files.resolve with step | ⟨q, r⟩
  · cases step <;> rfl
  · exact c.stands_enter _ q r _

/-- The failure that an act ends a call with, if it does. -/
def failure? (c : Course) : Act → Option Failure
  | .cancel | .source _ _ _ => none
  | .file loader path =>
    if c.run.files.isEmpty then
      match c.run.session.request loader.resolve path none with
      | .error failure => some failure
      | .ok q => (q.answer (loader.load q.location) c.run).failure?
    else none
  | .round loader =>
    match c.run.advance loader.resolve with
    | .over step => step.failure?
    | .wanting q r => (q.answer (loader.load q.location) r).failure?

/-- The failures of acts, in order. -/
def failures (c : Course) : List Act → List Failure
  | [] => []
  | a :: acts => (c.failure? a).toList ++ (c.act a).failures acts

theorem failure?_round (c : Course) (files : SourceFiles) :
    c.failure? (.round (.ofFiles files)) = (c.run.step files).failure? := by
  unfold failure? Run.step
  dsimp only [Loader.ofFiles]
  rcases c.run.advance files.resolve with step | ⟨q, r⟩ <;> rfl

theorem after_append (c : Course) (acts acts' : List Act) :
    c.after (acts ++ acts') = (c.after acts).after acts' :=
  List.foldl_append

/-- A run is completed by rounds, of which only the last one may fail. -/
theorem exists_after_complete (files : SourceFiles) (c : Course) :
    ∃ n log, c.failures (List.replicate n (.round (.ofFiles files))) = [] ∧
      (c.after (List.replicate n (.round (.ofFiles files)))).failure? (.round (.ofFiles files)) =
        (c.run.complete files).1 ∧
      c.after (List.replicate (n + 1) (.round (.ofFiles files))) =
        idle (c.run.complete files).2 log := by
  generalize hr : c.run = r
  induction r using Run.complete.induct files generalizing c with
  | case1 r s hstep | case2 r failure s hstep =>
    have hstands := c.stands_round files
    have hfails := c.failure?_round files
    rw [hr, hstep] at hstands hfails
    rw [Run.complete_eq, hstep]
    exact ⟨0, c.log, rfl, hfails, hstands⟩
  | case3 r r' hstep ih =>
    have hstands := c.stands_round files
    have hfails := c.failure?_round files
    rw [hr, hstep] at hstands hfails
    obtain ⟨n, log, hfailures, hlast, hacts⟩ := ih _ hstands
    rw [Run.complete_eq, hstep]
    refine ⟨n + 1, log, ?_, hlast, hacts⟩
    rw [List.replicate_succ, failures, hfails]
    exact hfailures

/-- What is found for a file that the user asks for is opened, or ends the call. -/
theorem act_file (files : SourceFiles) (s : Session) (log : List Event) (path : String) :
    match s.request files.resolve path none with
    | .error failure => (idle s log).act (.file (.ofFiles files) path) = idle s log ∧
        (idle s log).failure? (.file (.ofFiles files) path) = some failure
    | .ok q =>
      ((idle s log).act (.file (.ofFiles files) path)).Stands log
        (q.answer (files.load q.location) ⟨s, []⟩) ∧
      (idle s log).failure? (.file (.ofFiles files) path) =
        (q.answer (files.load q.location) ⟨s, []⟩).failure? := by
  have hact : (idle s log).act (.file (.ofFiles files) path) =
      match s.request files.resolve path none with
      | .error _ => idle s log
      | .ok q => (idle s log).enter (.ofFiles files) q ⟨s, []⟩ .file := rfl
  have hfails : (idle s log).failure? (.file (.ofFiles files) path) =
      match s.request files.resolve path none with
      | .error failure => some failure
      | .ok q => (q.answer (files.load q.location) ⟨s, []⟩).failure? := rfl
  rw [hact, hfails]
  cases s.request files.resolve path none with
  | error failure => exact ⟨rfl, rfl⟩
  | ok q => exact ⟨(idle s log).stands_enter (.ofFiles files) q ⟨s, []⟩ .file, rfl⟩

/-- What the user asks of a session is done by an act and the rounds after it, of which only the
last one may fail. -/
theorem exists_after_perform (files : SourceFiles) (s : Session) (log : List Event)
    (call : Session.Call) :
    ∃ acts a n log', acts ++ [a] = .ofCall files call :: List.replicate n (.round (.ofFiles files)) ∧
      (idle s log).failures acts = [] ∧
      ((idle s log).after acts).failure? a = (s.perform files call).1 ∧
      (idle s log).after (acts ++ [a]) = idle (s.perform files call).2 log' := by
  have hrounds : ∀ n (a : Act), a :: List.replicate n (.round (.ofFiles files)) ++
      [.round (.ofFiles files)] = a :: List.replicate (n + 1) (.round (.ofFiles files)) := by
    intro n a
    rw [List.cons_append, ← List.replicate_succ']
  cases call with
  | cancel => exact ⟨[], .cancel, 0, log, rfl, rfl, rfl, rfl⟩
  | source name text =>
    obtain ⟨n, log', hfailures, hlast, hacts⟩ := exists_after_complete files
      ((idle s log).act (.ofCall files (.source name text)))
    exact ⟨.ofCall files (.source name text) :: List.replicate n (.round (.ofFiles files)),
      .round (.ofFiles files), n + 1, log', hrounds n _, hfailures, hlast,
      by rw [hrounds]; exact hacts⟩
  | file path =>
    have hasks := act_file files s log path
    show ∃ acts a n log', acts ++ [a] = .ofCall files (.file path) ::
      List.replicate n (.round (.ofFiles files)) ∧ (idle s log).failures acts = [] ∧
        ((idle s log).after acts).failure? a = (s.readFile files path).1 ∧
        (idle s log).after (acts ++ [a]) = idle (s.readFile files path).2 log'
    unfold Session.readFile
    cases hrequest : s.request files.resolve path none with
    | error failure =>
      rw [hrequest] at hasks
      exact ⟨[], .ofCall files (.file path), 0, log, rfl, rfl, hasks.2, hasks.1⟩
    | ok q =>
      rw [hrequest] at hasks
      obtain ⟨hstands, hfails⟩ := hasks
      dsimp only
      cases hanswer : q.answer (files.load q.location) ⟨s, []⟩ with
      | finished s' | failed failure s' =>
        rw [hanswer] at hstands hfails
        exact ⟨[], .ofCall files (.file path), 0, log, rfl, rfl, hfails, hstands⟩
      | reading r =>
        rw [hanswer] at hstands hfails
        obtain ⟨n, log', hfailures, hlast, hacts⟩ := exists_after_complete files
          ((idle s log).act (.ofCall files (.file path)))
        rw [show ((idle s log).act (.ofCall files (.file path))).run = r from hstands]
          at hlast hacts
        refine ⟨.ofCall files (.file path) :: List.replicate n (.round (.ofFiles files)),
          .round (.ofFiles files), n + 1, log', hrounds n _, ?_, hlast,
          by rw [hrounds]; exact hacts⟩
        rw [failures, show (idle s log).failure? (.ofCall files (.file path)) = none from hfails]
        exact hfailures

theorem exists_after_performs (files : SourceFiles) (s : Session) (log : List Event)
    (calls : List Session.Call) :
    ∃ acts log', (idle s log).after acts =
      idle (calls.foldl (fun s call => (s.perform files call).2) s) log' := by
  induction calls generalizing s log with
  | nil => exact ⟨[], log, rfl⟩
  | cons call calls ih =>
    obtain ⟨acts, a, -, log', -, -, -, hacts⟩ := exists_after_perform files s log call
    obtain ⟨acts', log'', hacts'⟩ := ih (s.perform files call).2 log'
    exact ⟨acts ++ [a] ++ acts', log'', by rw [after_append, hacts]; exact hacts'⟩

/-! ## The guard -/

/-- The code of a load that fails. -/
def loadCode : LoadFault → ErrorCode
  | .missing => .fileNotFound
  | .unreadable _ => .fileUnreadable

/-- The include guard at one moment of a course. -/
structure Guarded (c : Course) : Prop where
  /-- No file is visited twice, and the visited files are those recorded, in order, whether they
  came from a source, from the user's asking or from an include. -/
  visited_eq : c.visited = (c.log.map Event.key).eraseDups
  nodup : c.visited.Nodup
  /-- The session refuses a file that is visited, and no other. -/
  request : c.run.session.isCancelled = false → ∀ resolve path site,
    if (resolve path).key ∈ c.visited then
      ∃ failure, c.run.session.request resolve path site = .error failure ∧
        failure.diagnostic.code = some .fileRepeated
    else c.run.session.request resolve path site = .ok ⟨resolve path, path, site⟩
  /-- A followed include is refused if its file is visited, and asked for if it is not. -/
  included : ∀ path file outer, c.run.included? = some path → c.run.files = file :: outer →
    c.run.session.options.isImplicit path = false → ∀ resolve,
    let target := Run.includeTarget file path
    if (resolve target).key ∈ c.visited then
      (c.run.advance resolve).Refuses c.run.session.visited
    else
      ∃ site r, c.run.advance resolve = .wanting ⟨resolve target, target, some site⟩ r ∧
        r.session.visited = c.run.session.visited
  /-- A load that fails has its own code and records nothing. -/
  failed : ∀ loader q r, c.Loads loader q r → ∀ found fault, found.content = .error fault →
    ∃ failure s, q.answer found r = .failed failure s ∧
      failure.diagnostic.code = some (loadCode fault) ∧ s.visited = c.run.session.visited
  /-- A load that succeeds records the file once, and nothing of its text is read then. -/
  loaded : ∀ loader q r, c.Loads loader q r → ∀ found text, found.content = .ok text →
    ∃ s file, q.answer found r = .reading ⟨s, file :: r.files⟩ ∧
      s.visited.toList = c.visited ++ [q.location.key] ∧ q.location.key ∉ c.visited ∧
      file.source = text ∧ file.scanner = .ofString text
  /-- No file is loaded twice. -/
  loads_nodup : (c.log.filterMap Event.loaded?).Nodup
  /-- Each open file has its key in the nest. -/
  nest_length : c.nest.length = c.run.files.length
  /-- A followed include that closes a cycle is refused. -/
  cycle : ∀ path file outer, c.run.included? = some path → c.run.files = file :: outer →
    c.run.session.options.isImplicit path = false → ∀ resolve,
    (resolve (Run.includeTarget file path)).key ∈ c.nest →
    (c.run.advance resolve).Refuses c.run.session.visited

theorem Recorded.guarded (h : c.Recorded) : c.Guarded := by
  have hincluded : ∀ path file outer, c.run.included? = some path → c.run.files = file :: outer →
      c.run.session.options.isImplicit path = false → ∀ resolve,
      let target := Run.includeTarget file path
      if (resolve target).key ∈ c.visited then
        (c.run.advance resolve).Refuses c.run.session.visited
      else
        ∃ site r, c.run.advance resolve = .wanting ⟨resolve target, target, some site⟩ r ∧
          r.session.visited = c.run.session.visited := by
    intro path file outer hpath hfiles himplicit resolve
    simpa only [visited, Array.mem_toList_iff] using
      Run.advance_included hpath hfiles himplicit resolve
  have hcancel : ∀ {s : Session} {cancels : Bool}, s.visited = c.run.session.visited →
      (if cancels = true then s.cancel else s).visited = c.run.session.visited := by
    intro s cancels hs
    split <;> exact hs
  refine ⟨h.visited_eq, h.nodup, fun hgo resolve path site => ?_, hincluded,
    fun loader q r hq found fault hfound => ?_, fun loader q r hq found text hfound => ?_,
    h.loaded, h.nest_length, fun path file outer hpath hfiles himplicit resolve hcycle => ?_⟩
  · rw [Session.request_eq hgo]
    simp only [visited, Array.mem_toList_iff]
    split
    · exact ⟨_, rfl, code_failureOf path site _⟩
    · rfl
  · obtain ⟨hvisited, -, -⟩ := h.loads hq
    unfold Request.answer
    rw [hfound]
    refine ⟨_, _, rfl, ?_, hcancel hvisited⟩
    rw [code_failureOf]
    cases fault <;> rfl
  · obtain ⟨hvisited, hnew, -⟩ := h.loads hq
    unfold Request.answer
    rw [hfound]
    refine ⟨_, _, rfl, ?_, hnew, rfl, rfl⟩
    have hsession := @hcancel _ found.cancels hvisited
    rw [Session.visited_visit_of_not_mem, Array.toList_push, hsession]
    · rfl
    · rw [hsession]
      exact fun hmem => hnew (Array.mem_toList_iff.2 hmem)
  · have hrefuses := hincluded path file outer hpath hfiles himplicit resolve
    dsimp only at hrefuses
    rwa [if_pos (h.nest_visited _ hcycle)] at hrefuses

/-- **The include guard.**  Whatever happens in a session, with whatever loader, the guard holds
at each moment; and what the user asks of a session with the same files throughout, with all the
includes that follow, happens in this way. -/
theorem guarded_after (options : ReadOptions) :
    (∀ acts, ((start options).after acts).Guarded) ∧
      ∀ files (calls : List Session.Call), ∃ acts log, (start options).after acts =
        idle (calls.foldl (fun s call => (s.perform files call).2) (.start options)) log :=
  ⟨fun acts => (recorded_after options acts).guarded,
    fun files calls => exists_after_performs files (.start options) [] calls⟩

end Course

end AcsOutline
