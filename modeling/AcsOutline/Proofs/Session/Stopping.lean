import AcsOutline.Proofs.Session.Guard

/-!
# Stopping a session

A session is asked to stop by the user, or while a file is loaded.  From that moment on its tree
stays as it is and no file is loaded, neither in the call that is under way nor in a later one
(`Course.Stopped`).  The call under way fails, and so does each later one (`Course.stops_after`).

The flag is read at two places, before a declaration and before a file is asked for; that these two
are enough is because nothing else of a round comes before the first, and nothing of a load before
the second.
-/

namespace AcsOutline

/-- A file that is recorded changes nothing else. -/
theorem Session.still_visit (s : Session) (key : String) :
    (s.visit key).isCancelled = s.isCancelled ∧ (s.visit key).builder = s.builder := by
  unfold visit
  split <;> exact ⟨rfl, rfl⟩

/-- A file that is about to be loaded, and the run that goes on with what is found. -/
structure Load where
  loader : Loader
  request : Request
  run : Run

/-- What the loader finds. -/
def Load.found (l : Load) : Finding :=
  l.loader.load l.request.location

namespace Course

/-- What an act loads, if it comes to that. -/
def load? (c : Course) : Act → Option Load
  | .cancel | .source _ _ _ => none
  | .file loader path =>
    if c.run.files.isEmpty then
      match c.run.session.request loader.resolve path none with
      | .error _ => none
      | .ok q => some ⟨loader, q, c.run⟩
    else none
  | .round loader =>
    match c.run.advance loader.resolve with
    | .over _ => none
    | .wanting q r => some ⟨loader, q, r⟩

/-- An act fails because the session was asked to stop, and nothing is being read after it. -/
def Refuses (c : Course) (a : Act) : Prop :=
  (∃ failure, c.failure? a = some failure ∧ failure.diagnostic.code = some .cancelled) ∧
    (c.act a).run.files = []

/-- A session that was asked to stop, at one moment of its course. -/
structure Stopped (c : Course) : Prop where
  /-- It stays so whatever happens, and nothing reaches its tree. -/
  still : ∀ acts, (c.after acts).run.session.isCancelled = true ∧
    (c.after acts).run.session.builder = c.run.session.builder
  /-- No file is loaded any more. -/
  unloading : ∀ acts a, (c.after acts).load? a = none
  /-- The call under way fails with the next round. -/
  round : ∀ acts loader, (c.after acts).run.files ≠ [] → (c.after acts).Refuses (.round loader)
  /-- To ask for a file fails. -/
  file : ∀ acts loader path, (c.after acts).run.files = [] →
    (c.after acts).Refuses (.file loader path)
  /-- A source that is given fails with its first round. -/
  source : ∀ acts loader name text, (c.after acts).run.files = [] → ∀ loader',
    ((c.after acts).act (.source loader name text)).Refuses (.round loader')
  /-- Nothing fails for another reason. -/
  code : ∀ acts, ∀ failure ∈ c.failures acts, failure.diagnostic.code = some .cancelled

/-! ## One act of a session that was asked to stop -/

variable {c : Course} {a : Act} {l : Load} {f : OpenFile} {outer : List OpenFile}

/-- Nothing is asked for. -/
theorem request_of_isCancelled {s : Session} (h : s.isCancelled = true)
    (resolve : String → Location) (path : String) (site : Option IncludeSite) :
    s.request resolve path site = .error (failureOf path site .cancelled) := by
  unfold Session.request
  rw [if_pos h]

/-- Nothing is read. -/
theorem advance_of_isCancelled {r : Run} (h : r.session.isCancelled = true)
    (hfiles : r.files = f :: outer) (resolve : String → Location) :
    r.advance resolve =
      .over (.failed (f.failure .cancelled f.scanner.line none) r.session) := by
  rw [Run.advance_of_files resolve hfiles, if_pos h]

theorem refuses_round (h : c.run.session.isCancelled = true) (hfiles : c.run.files ≠ [])
    (loader : Loader) : c.Refuses (.round loader) := by
  obtain ⟨f, outer, hf⟩ := List.exists_cons_of_ne_nil hfiles
  have hadvance := advance_of_isCancelled h hf loader.resolve
  unfold Refuses failure? act
  dsimp only
  rw [hadvance]
  exact ⟨⟨_, rfl, rfl⟩, rfl⟩

theorem refuses_file (h : c.run.session.isCancelled = true) (hfiles : c.run.files = [])
    (loader : Loader) (path : String) : c.Refuses (.file loader path) := by
  have hempty : c.run.files.isEmpty = true := List.isEmpty_iff.2 hfiles
  have hrequest := request_of_isCancelled h loader.resolve path none
  unfold Refuses failure? act
  dsimp only
  rw [if_pos hempty, if_pos hempty, hrequest]
  exact ⟨⟨_, rfl, code_failureOf path none _⟩, hfiles⟩

/-- **One act leaves the tree of a session that was asked to stop.**  If it fails, then because the
session was asked to stop. -/
theorem still_act (h : c.run.session.isCancelled = true) (a : Act) :
    (c.act a).run.session.isCancelled = true ∧
      (c.act a).run.session.builder = c.run.session.builder ∧ c.load? a = none ∧
      ∀ failure ∈ c.failure? a, failure.diagnostic.code = some .cancelled := by
  have hnone : ∀ failure ∈ (none : Option Failure),
      failure.diagnostic.code = some .cancelled :=
    fun failure hnone => absurd hnone (Option.not_mem_none failure)
  cases a with
  | cancel => exact ⟨rfl, rfl, rfl, hnone⟩
  | source loader name text =>
    unfold act
    dsimp only
    split
    · obtain ⟨hcancelled, hbuilder⟩ := c.run.session.still_visit (loader.resolve name).key
      exact ⟨hcancelled.trans h, hbuilder, rfl, hnone⟩
    · exact ⟨h, rfl, rfl, hnone⟩
  | file loader path =>
    have hrequest := request_of_isCancelled h loader.resolve path none
    unfold act load? failure?
    dsimp only
    rw [hrequest]
    by_cases hempty : c.run.files.isEmpty = true
    · rw [if_pos hempty, if_pos hempty, if_pos hempty]
      refine ⟨h, rfl, rfl, fun failure hfailure => ?_⟩
      obtain rfl := Option.some.inj hfailure
      exact code_failureOf path none _
    · rw [if_neg hempty, if_neg hempty, if_neg hempty]
      exact ⟨h, rfl, rfl, hnone⟩
  | round loader =>
    unfold act load? failure?
    dsimp only
    cases hfiles : c.run.files with
    | nil =>
      rw [Run.advance_of_files_nil loader.resolve hfiles]
      exact ⟨h, rfl, rfl, hnone⟩
    | cons f outer =>
      rw [advance_of_isCancelled h hfiles]
      refine ⟨h, rfl, rfl, fun failure hfailure => ?_⟩
      obtain rfl := Option.some.inj hfailure
      rfl

/-! ## A session from the moment it is asked to stop -/

theorem still_after (h : c.run.session.isCancelled = true) (acts : List Act) :
    (c.after acts).run.session.isCancelled = true ∧
      (c.after acts).run.session.builder = c.run.session.builder := by
  induction acts generalizing c with
  | nil => exact ⟨h, rfl⟩
  | cons a acts ih =>
    obtain ⟨hact, hbuilder, -, -⟩ := still_act h a
    obtain ⟨hafter, hsame⟩ := ih hact
    exact ⟨hafter, hsame.trans hbuilder⟩

theorem code_of_mem_failures (h : c.run.session.isCancelled = true) (acts : List Act) :
    ∀ failure ∈ c.failures acts, failure.diagnostic.code = some .cancelled := by
  induction acts generalizing c with
  | nil => exact fun failure hmem => absurd hmem List.not_mem_nil
  | cons a acts ih =>
    obtain ⟨hact, -, -, hcode⟩ := still_act h a
    intro failure hmem
    rcases List.mem_append.1 hmem with hmem | hmem
    · exact hcode failure (Option.mem_toList.1 hmem)
    · exact ih hact failure hmem

theorem stopped_of_isCancelled (h : c.run.session.isCancelled = true) : c.Stopped where
  still := still_after h
  unloading acts a := (still_act (still_after h acts).1 a).2.2.1
  round acts loader hfiles := refuses_round (still_after h acts).1 hfiles loader
  file acts loader path hfiles := refuses_file (still_after h acts).1 hfiles loader path
  source acts loader name text hfiles loader' := by
    have hempty : (c.after acts).run.files.isEmpty = true := List.isEmpty_iff.2 hfiles
    refine refuses_round (still_act (still_after h acts).1 _).1 ?_ loader'
    unfold act
    dsimp only
    rw [if_pos hempty]
    exact List.cons_ne_nil _ _
  code := code_of_mem_failures h

/-! ## The load that asks a session to stop -/

/-- A file is loaded where the act goes on with what is found. -/
theorem act_of_load? (h : c.load? a = some l) :
    (∃ event, c.act a = c.enter l.loader l.request l.run event) ∧
      c.failure? a = (l.request.answer l.found l.run).failure? := by
  cases a with
  | cancel | source => cases h
  | file loader path =>
    unfold load? at h
    unfold act failure?
    dsimp only at h ⊢
    split at h
    next hempty =>
      rw [if_pos hempty, if_pos hempty]
      cases hrequest : c.run.session.request loader.resolve path none with
      | error failure =>
        rw [hrequest] at h
        cases h
      | ok q =>
        rw [hrequest] at h
        obtain rfl := Option.some.inj h
        exact ⟨⟨.file, rfl⟩, rfl⟩
    · cases h
  | round loader =>
    unfold load? at h
    unfold act failure?
    dsimp only at h ⊢
    rcases hadvance : c.run.advance loader.resolve with step | ⟨q, r⟩
    · rw [hadvance] at h
      cases h
    · rw [hadvance] at h
      obtain rfl := Option.some.inj h
      exact ⟨⟨.included, rfl⟩, rfl⟩

/-- What a load comes to that asks the session to stop: it fails with a code of its own, or its file
is opened.  The tree is left as it was before the load. -/
theorem act_of_cancels (h : c.load? a = some l) (hcancels : l.found.cancels = true) :
    (c.act a).run.session.isCancelled = true ∧
      (c.act a).run.session.builder = l.run.session.builder ∧
      match l.found.content with
      | .error fault => (c.act a).run.files = [] ∧
          ∃ failure, c.failure? a = some failure ∧
            failure.diagnostic.code = some (Course.loadCode fault)
      | .ok _ => (c.act a).run.files ≠ [] ∧ c.failure? a = none := by
  obtain ⟨⟨event, hact⟩, hfailure⟩ := act_of_load? h
  rw [hact, hfailure]
  unfold enter
  rw [show l.loader.load l.request.location = l.found from rfl]
  unfold Request.answer
  rw [hcancels, if_pos rfl]
  cases l.found.content with
  | error fault =>
    refine ⟨rfl, rfl, rfl, _, rfl, ?_⟩
    rw [code_failureOf]
    cases fault <;> rfl
  | ok text =>
    obtain ⟨hcancelled, hbuilder⟩ :=
      l.run.session.cancel.still_visit l.request.location.key
    exact ⟨hcancelled, hbuilder, List.cons_ne_nil _ _, rfl⟩

/-! ## Whole calls -/

end Course

/-- A failure because the session was asked to stop, or of the load that asked it. -/
def SourceFiles.Stopping (files : SourceFiles) (failure : Failure) : Prop :=
  failure.diagnostic.code = some .cancelled ∨
    ∃ location fault, (files.load location).cancels = true ∧
      (files.load location).content = .error fault ∧
      failure.diagnostic.code = some (Course.loadCode fault)

namespace Run

variable {files : SourceFiles} {r : Run} {f : OpenFile} {outer : List OpenFile}

theorem complete_of_isCancelled (h : r.session.isCancelled = true) (hfiles : r.files = f :: outer) :
    r.complete files = (some (f.failure .cancelled f.scanner.line none), r.session) := by
  have hstep : r.step files =
      .failed (f.failure .cancelled f.scanner.line none) r.session := by
    unfold step
    rw [Course.advance_of_isCancelled h hfiles]
  rw [complete_eq, hstep]

/-- A round that fails in a session that it leaves stopped fails for that. -/
theorem stopping_of_step {failure : Failure} {s : Session} (hstep : r.step files = .failed failure s)
    (hs : s.isCancelled = true) : files.Stopping failure := by
  cases hfiles : r.files with
  | nil =>
    rw [step_of_files_nil files hfiles] at hstep
    cases hstep
  | cons f outer =>
    by_cases hgo : r.session.isCancelled = true
    · unfold step at hstep
      rw [Course.advance_of_isCancelled hgo hfiles] at hstep
      cases hstep
      exact .inl rfl
    · have hturns := turns_readFile files.resolve r.session f outer
      unfold step at hstep
      rw [advance_of_files files.resolve hfiles, if_neg hgo] at hstep
      rcases hread : readFile files.resolve r.session f outer with step | ⟨q, r'⟩
      · rw [hread] at hstep hturns
        dsimp only at hstep
        subst hstep
        cases hturns with
        | failed _ hcontinues => exact absurd (hcontinues.isCancelled_eq.symm.trans hs) hgo
      · rw [hread] at hstep hturns
        cases hturns with
        | @wanting _ s' hcontinues g hg =>
          unfold Request.answer at hstep
          dsimp only at hstep
          split at hstep
          next fault hfault =>
            cases hstep
            by_cases hcancels : (files.load q.location).cancels = true
            · refine .inr ⟨q.location, fault, hcancels, hfault, ?_⟩
              rw [code_failureOf]
              cases fault <;> rfl
            · rw [if_neg hcancels] at hs
              exact absurd (hcontinues.isCancelled_eq.symm.trans hs) hgo
          · cases hstep

/-- **A run that is asked to stop fails.** -/
theorem stopping_of_complete (h : r.session.isCancelled = true → r.files ≠ [])
    (hend : (r.complete files).2.isCancelled = true) :
    ∃ failure, (r.complete files).1 = some failure ∧ files.Stopping failure := by
  induction r using complete.induct files with
  | case1 r s hstep =>
    rw [complete_eq, hstep] at hend
    obtain ⟨hnil, rfl⟩ : r.files = [] ∧ s = r.session := by
      cases hfiles : r.files with
      | nil =>
        rw [step_of_files_nil files hfiles] at hstep
        cases hstep
        exact ⟨rfl, rfl⟩
      | cons f outer => exact absurd hstep (step_ne_finished hfiles s)
    exact absurd hnil (h hend)
  | case2 r failure s hstep =>
    rw [complete_eq, hstep] at hend ⊢
    exact ⟨failure, rfl, stopping_of_step hstep hend⟩
  | case3 r r' hstep ih =>
    rw [complete_eq, hstep] at hend ⊢
    obtain ⟨f, outer, hturned⟩ := turned_step hstep
    refine ih (fun hcancelled => ?_) hend
    rcases hturned.turned with ⟨hgo, -⟩ | ⟨g, inner, -, hfiles⟩
    · rw [hcancelled] at hgo
      cases hgo
    · rw [hfiles]
      exact List.cons_ne_nil _ _

end Run

namespace Session

variable {files : SourceFiles} {s : Session} {call : Call}

/-- Whatever is asked of a session that was asked to stop fails, and leaves its tree. -/
theorem perform_of_isCancelled (h : s.isCancelled = true) (hcall : call ≠ .cancel) :
    (∃ failure, (s.perform files call).1 = some failure ∧
      failure.diagnostic.code = some .cancelled) ∧
    (s.perform files call).2.isCancelled = true ∧
    (s.perform files call).2.builder = s.builder := by
  cases call with
  | cancel => exact absurd rfl hcall
  | source name text =>
    obtain ⟨hcancelled, hbuilder⟩ := s.still_visit (files.resolve name).key
    unfold perform readSource
    dsimp only
    rw [Run.complete_of_isCancelled (hcancelled.trans h) rfl]
    exact ⟨⟨_, rfl, rfl⟩, hcancelled.trans h, hbuilder⟩
  | file path =>
    unfold perform readFile
    dsimp only
    rw [Course.request_of_isCancelled h]
    exact ⟨⟨_, rfl, code_failureOf path none _⟩, h, rfl⟩

/-- A call fails that leaves its session stopped. -/
theorem stopping_of_perform (hcall : call ≠ .cancel)
    (hend : (s.perform files call).2.isCancelled = true) :
    ∃ failure, (s.perform files call).1 = some failure ∧ files.Stopping failure := by
  by_cases h : s.isCancelled = true
  · obtain ⟨failure, hfails, hcode⟩ : ∃ failure, (s.perform files call).1 = some failure ∧
        failure.diagnostic.code = some .cancelled := (perform_of_isCancelled h hcall).1
    exact ⟨failure, hfails, .inl hcode⟩
  · cases call with
    | cancel => exact absurd rfl hcall
    | source name text =>
      exact Run.stopping_of_complete (fun _ => List.cons_ne_nil _ _) hend
    | file path =>
      unfold perform readFile at hend ⊢
      dsimp only at hend ⊢
      cases hrequest : s.request files.resolve path none with
      | error failure =>
        rw [hrequest] at hend
        exact absurd hend h
      | ok q =>
        rw [hrequest] at hend
        dsimp only at hend ⊢
        unfold Request.answer at hend ⊢
        dsimp only at hend ⊢
        cases hfound : (files.load q.location).content with
        | error fault =>
          rw [hfound] at hend
          by_cases hcancels : (files.load q.location).cancels = true
          · refine ⟨_, rfl, .inr ⟨q.location, fault, hcancels, hfound, ?_⟩⟩
            rw [code_failureOf]
            cases fault <;> rfl
          · dsimp only at hend
            rw [if_neg hcancels] at hend
            exact absurd hend h
        | ok text =>
          rw [hfound] at hend
          exact Run.stopping_of_complete (fun _ => List.cons_ne_nil _ _) hend

end Session

/-! ## Stopping -/

namespace Course

/-- How a session is stopped, at one moment of its course. -/
structure Stops (c : Course) : Prop where
  /-- It is stopped if it was asked to. -/
  asked : c.run.session.isCancelled = true → c.Stopped
  /-- The user asks for it, whatever is being read, and the tree stays as it is. -/
  cancel : (c.act .cancel).Stopped ∧ (c.act .cancel).run.session.builder = c.run.session.builder
  /-- A load asks for it, and the tree stays as it was when the file was asked for.  The load fails
  with a code of its own and ends the call, or the file is opened and the call goes on. -/
  loading : ∀ a l, c.load? a = some l → l.found.cancels = true →
    (c.act a).Stopped ∧ (c.act a).run.session.builder = l.run.session.builder ∧
      match l.found.content with
      | .error fault => (c.act a).run.files = [] ∧
          ∃ failure, c.failure? a = some failure ∧
            failure.diagnostic.code = some (loadCode fault)
      | .ok _ => (c.act a).run.files ≠ [] ∧ c.failure? a = none

theorem stops (c : Course) : c.Stops where
  asked := stopped_of_isCancelled
  cancel := ⟨stopped_of_isCancelled rfl, rfl⟩
  loading _ _ h hcancels := by
    obtain ⟨hcancelled, hbuilder, hends⟩ := act_of_cancels h hcancels
    exact ⟨stopped_of_isCancelled hcancelled, hbuilder, hends⟩

/-- **Nothing is added once a session is asked to stop.**  Whatever happens in a session, with
whatever loader, it stops when it is asked to, by the user or while a file is loaded; and the calls
of a session with the same files throughout happen in this way, and fail so. -/
theorem stops_after (options : ReadOptions) :
    (∀ acts, ((start options).after acts).Stops) ∧
    (∀ (files : SourceFiles) (s : Session) (call : Session.Call), call ≠ .cancel →
      (s.isCancelled = true →
        (∃ failure, (s.perform files call).1 = some failure ∧
          failure.diagnostic.code = some .cancelled) ∧
        (s.perform files call).2.isCancelled = true ∧
        (s.perform files call).2.builder = s.builder) ∧
      ((s.perform files call).2.isCancelled = true →
        ∃ failure, (s.perform files call).1 = some failure ∧ files.Stopping failure)) ∧
    (∀ files (calls : List Session.Call), ∃ acts log, (start options).after acts =
      idle (calls.foldl (fun s call => (s.perform files call).2) (.start options)) log) ∧
    ∀ (files : SourceFiles) s log call, ∃ acts a n log',
      acts ++ [a] = .ofCall files call :: List.replicate n (.round (.ofFiles files)) ∧
      (idle s log).failures acts = [] ∧
      ((idle s log).after acts).failure? a = (s.perform files call).1 ∧
      (idle s log).after (acts ++ [a]) = idle (s.perform files call).2 log' :=
  ⟨fun _ => stops _,
    fun _ _ _ hcall => ⟨fun h => Session.perform_of_isCancelled h hcall,
      Session.stopping_of_perform hcall⟩,
    fun files calls => exists_after_performs files (.start options) [] calls,
    exists_after_perform⟩

/-- A session is stopped while an included file is loaded: the include is added, and nothing of the
included file. -/
theorem stops_after_include :
    let loader := Loader.ofFiles (.ofList [("b.acs", ⟨.ok "int y;", true⟩)])
    let c := (start .standard).after [.source loader "a.acs" "#include \"b.acs\"\nint x;"]
    ∃ l, c.load? (.round loader) = some l ∧ l.found.cancels = true ∧
      (c.act (.round loader)).Stopped ∧ (c.act (.round loader)).run.files ≠ [] ∧
      (c.act (.round loader)).run.session.tree.entries.map Entry.declaration =
        #[.includeFile "b.acs"] := by
  intro loader c
  have hload : (c.load? (.round loader)).map (fun l => (l.found.cancels, l.found.content.toBool,
      l.run.session.tree.entries.map Entry.declaration)) =
      some (true, true, #[.includeFile "b.acs"]) := by
    decide +kernel
  obtain ⟨l, hl, hfound⟩ := Option.map_eq_some_iff.1 hload
  obtain ⟨hcancels, htext, hentries⟩ :
      l.found.cancels = true ∧ l.found.content.toBool = true ∧
        l.run.session.tree.entries.map Entry.declaration = #[.includeFile "b.acs"] := by
    simpa only [Prod.mk.injEq] using hfound
  have hstops : c.Stops := (stops_after .standard).1 _
  obtain ⟨hstopped, hbuilder, hends⟩ := hstops.loading (.round loader) l hl hcancels
  refine ⟨l, hl, hcancels, hstopped, ?_, ?_⟩
  · cases hcontent : l.found.content with
    | error fault =>
      rw [hcontent] at htext
      cases htext
    | ok text =>
      rw [hcontent] at hends
      exact hends.1
  · unfold Session.tree
    rw [hbuilder]
    exact hentries

end Course

end AcsOutline
