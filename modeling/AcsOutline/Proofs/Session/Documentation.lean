import AcsOutline.Proofs.Session.History
import AcsOutline.Proofs.Tree.Bindings

/-!
# Documentation goes to one declaration

A documentation comment waits for the next declaration that is added, whatever stands between the
two: namespaces that are opened and closed, ends of files, files that are included, and calls that
fail.  The history of a session tells which comment that is (`History.docDue`), and so for each
declaration of the tree where its documentation comes from (`Course.documented_after`).

That the history tells all this is shown for one round (`Course.becomes_round`), from what each part
of a round does to the session, and then for all acts.
-/

namespace AcsOutline

/-! ## What a run becomes -/

/-- A file that is read from its start. -/
def OpenFile.Reached (f : OpenFile) : Prop :=
  (Scanner.ofString f.source).Reads f.scanner

/-- The documentation comments before the next token stand in the source behind what was read. -/
theorem OpenFile.Reached.docComments_eq {f : OpenFile} (hf : f.Reached) :
    Session.docComments (f.scanner.next.triviaSince f.scanner.triviaCount) =
      Happening.leadingDocs f.place f.scanner.next.token := by
  rw [← Session.docComments_filter, Scanner.filter_triviaSince hf (Scanner.Reads.refl _).next]
  rfl

/-- A run `r` becomes `r'` by what happens: it can be told, besides, which files are open and how
far each is read, and each declaration starts where the innermost file is read to. -/
structure Run.Becomes (r r' : Run) (h : History) : Prop where
  session : r.session.Becomes r'.session h
  places_eq : r'.files.map OpenFile.place = h.foldl Happening.walk (r.files.map OpenFile.place)
  starts : EachAfter (fun before x => ∀ place first, x = .starts place first →
    (before.foldl Happening.walk (r.files.map OpenFile.place)).head? = some place) h

namespace Run.Becomes

variable {r r' r'' : Run} {h h' : History} {s s' : Session} {files : List OpenFile}
  {f : OpenFile} {outer : List OpenFile}

theorem trans (hr : r.Becomes r' h) (hr' : r'.Becomes r'' h') : r.Becomes r'' (h ++ h') where
  session := hr.session.trans hr'.session
  places_eq := by rw [hr'.places_eq, hr.places_eq, List.foldl_append]
  starts := by
    refine hr.starts.append fun before x later hx place first hplace => ?_
    rw [List.foldl_append, ← hr.places_eq]
    exact hr'.starts before x later hx place first hplace

/-- Only the session changes, and nothing happens. -/
theorem of_session (files : List OpenFile) (hs : s.Becomes s' []) :
    (Run.mk s files).Becomes ⟨s', files⟩ [] :=
  ⟨hs, rfl, eachAfter_nil⟩

theorem refl (r : Run) : r.Becomes r [] :=
  of_session r.files (.refl r.session)

/-- Steps in building the tree leave the files alone. -/
theorem of_edits (files : List OpenFile) {es : List Builder.Edit}
    (hs : s.Becomes s' (es.map .edits)) :
    (Run.mk s files).Becomes ⟨s', files⟩ (es.map .edits) := by
  refine ⟨hs, ?_, ?_⟩
  · have hwalk : ∀ places, (es.map Happening.edits).foldl Happening.walk places = places := by
      intro places
      rw [List.foldl_map]
      exact List.foldl_fixed' (fun _ => rfl) es
    exact (hwalk _).symm
  · intro before x later hx place first hplace
    have hmem : x ∈ es.map Happening.edits := by
      rw [hx]
      exact List.mem_append_right _ List.mem_cons_self
    obtain ⟨e, -, rfl⟩ := List.mem_map.1 hmem
    cases hplace

/-- A declaration starts where its file is read to. -/
theorem of_start (outer : List OpenFile) {first : Token}
    (hs : s.Becomes s' [.starts f.place first]) :
    (Run.mk s (f :: outer)).Becomes ⟨s', f :: outer⟩ [.starts f.place first] := by
  refine ⟨hs, rfl, .cons ?_ eachAfter_nil⟩
  rintro place first' ⟨⟩
  rfl

/-- What happens to the files alone. -/
theorem of_walk (s : Session) {files files' : List OpenFile} {x : Happening}
    (hfiles : files'.map OpenFile.place = x.walk (files.map OpenFile.place))
    (hedit : x.edit? = none) (hstart : x.isStart = false) :
    (Run.mk s files).Becomes ⟨s, files'⟩ [x] := by
  have hnone : x.doc? = none ∧ x.warning? = none ∧ ∀ place first, x ≠ .starts place first := by
    cases x with
    | starts place first => cases hstart
    | _ => exact ⟨rfl, rfl, fun _ _ h => by cases h⟩
  obtain ⟨hdoc, hwarning, hne⟩ := hnone
  exact ⟨.of_idle hedit hdoc hwarning s, hfiles,
    .cons (fun place first hx => absurd hx (hne place first)) eachAfter_nil⟩

end Run.Becomes

/-! ## One round -/

/-- The session after a stage. -/
def Stage.session : Stage → Session
  | .over (.finished s) | .over (.failed _ s) => s
  | .over (.reading r) | .wanting _ r => r.session

/-- The files that are open after a stage that goes on. -/
def Stage.files? : Stage → Option (List OpenFile)
  | .over (.reading r) | .wanting _ r => some r.files
  | _ => none

/-- A run comes to a stage by what happens. -/
def Run.ComesTo (r : Run) (stage : Stage) (h : History) : Prop :=
  ∃ files, r.Becomes ⟨stage.session, files⟩ h ∧ ∀ files' ∈ stage.files?, files' = files

namespace Run

variable {resolve : String → Location} {session : Session} {f : OpenFile} {outer : List OpenFile}

theorem Becomes.comesTo {r r' : Run} {stage : Stage} {h h' : History} (hr : r.Becomes r' h)
    (hstage : r'.ComesTo stage h') : r.ComesTo stage (h ++ h') := by
  obtain ⟨files, hr', hfiles⟩ := hstage
  exact ⟨files, hr.trans hr', hfiles⟩

/-- An include is followed when all else has happened. -/
theorem comesTo_follow {r : Run} {h : History} (hr : r.Becomes ⟨session, f :: outer⟩ h)
    (path : String) (site : IncludeSite) :
    r.ComesTo (follow resolve path site session f outer) h := by
  unfold follow
  split
  · exact ⟨_, hr, fun _ h => (Option.some.inj h).symm⟩
  · split
    · exact ⟨_, hr, nofun⟩
    · exact ⟨_, hr, fun _ h => (Option.some.inj h).symm⟩

/-- A declaration is added, its trivia is harvested, and it ends. -/
theorem comesTo_declare (resolve : String → Location) (declaration : Option Declaration)
    (first : Scanner) {t : Scanner} (hstop : t.token.span.stop = t.position) :
    (Run.mk session (f :: outer)).ComesTo
      (declare resolve declaration first session { f with scanner := t } outer)
      ((declaration.map fun d =>
          .edits (.entry ⟨d, first.token.line, session.pendingDoc⟩)).toList ++
        (Builder.noteEdits session.options.tags f.name (t.triviaSince first.triviaCount)
          (declaration.map Declaration.label)).map .edits ++
        [.ends first.token t.token declaration]) := by
  have hends : ∀ s : Session, (Run.mk s (f :: outer)).Becomes ⟨s, { f with scanner := t } :: outer⟩
      [.ends first.token t.token declaration] := by
    have hplaces : (ReadPoint.mk f.name f.source t.position) :: outer.map OpenFile.place =
        ⟨f.name, f.source, t.token.span.stop⟩ :: outer.map OpenFile.place := by
      rw [hstop]
    intro s
    refine .of_walk s ?_ rfl rfl
    exact hplaces
  unfold declare
  cases declaration with
  | none =>
    exact ⟨_, (Becomes.of_edits _ (.harvest _ _ _ _)).trans (hends _),
      fun _ h => (Option.some.inj h).symm⟩
  | some d =>
    have hadd : (Run.mk session (f :: outer)).Becomes
        ⟨session.addDeclaration d first.token.line, f :: outer⟩
        [.edits (.entry ⟨d, first.token.line, session.pendingDoc⟩)] :=
      Becomes.of_edits _ (.addDeclaration session d first.token.line)
    have hall := (hadd.trans (Becomes.of_edits _ (.harvest _ f.name
      (t.triviaSince first.triviaCount) (some d.label)))).trans (hends _)
    dsimp only
    split
    · exact comesTo_follow hall _ _
    · exact ⟨_, hall, fun _ h => (Option.some.inj h).symm⟩

/-- **A declaration is read.**  What it does to the tree is done even if it fails. -/
theorem comesTo_readDeclaration (resolve : String → Location) {first : Scanner}
    (hfirst : first.Placed) :
    (Run.mk session (f :: outer)).ComesTo (readDeclaration resolve first session f outer)
      (f.reading session first) := by
  have hbuilder := builder_recognize first session.builder
  -- only the namespaces that the declaration opens or closes change the tree before it is added
  have hnamespace : ∀ e ∈ Builder.namespaceEdits first, e.entry? = none :=
    fun e he => (Builder.adds_nothing_of_mem_namespaceEdits he).1
  have hedits : (Run.mk session (f :: outer)).Becomes
      ⟨{ session with builder := (Desk.after (recognize ⟨first, session.builder⟩)).builder },
        f :: outer⟩ ((Builder.namespaceEdits first).map .edits) := by
    rw [hbuilder]
    exact .of_edits _ (.of_edits hnamespace)
  unfold readDeclaration OpenFile.reading
  cases hrecognize : recognize ⟨first, session.builder⟩ with
  | error rejection desk =>
    rw [hrecognize] at hedits
    exact ⟨_, hedits, nofun⟩
  | ok declaration desk =>
    rw [hrecognize] at hedits
    have hplaced : desk.scanner.Placed := (reads_recognize hrecognize).placed hfirst
    have hall := hedits.comesTo (comesTo_declare resolve declaration first hplaced.stop_eq)
    rw [← List.append_assoc, ← List.append_assoc] at hall
    exact hall

/-- **A file is read on, or left.** -/
theorem comesTo_readFile (resolve : String → Location) (session : Session) (outer : List OpenFile)
    (hf : f.Reached) :
    (Run.mk session (f :: outer)).ComesTo (readFile resolve session f outer)
      (f.happenings session) := by
  have hnext : f.scanner.Reads f.scanner.next := (Scanner.Reads.refl _).next
  have hplaced : f.scanner.next.Placed := (hf.trans hnext).placed (Scanner.placed_ofString f.source)
  have hleading := hf.docComments_eq
  have hnotes := Becomes.of_edits (f :: outer) (Session.Becomes.harvest session f.name
    (f.scanner.next.triviaSince f.scanner.triviaCount) none)
  unfold readFile OpenFile.happenings
  dsimp only
  split
  · have hleave : (Run.mk (session.harvest f.name
        (f.scanner.next.triviaSince f.scanner.triviaCount) none) (f :: outer)).Becomes
        ⟨_, outer⟩ [.leaves] := .of_walk _ rfl rfl rfl
    exact ⟨_, hnotes.trans hleave, fun _ h => (Option.some.inj h).symm⟩
  · have hstart := hnotes.trans (Becomes.of_start outer
      (Session.Becomes.takeDoc _ hleading))
    have hname : f.place.file = f.name := rfl
    rw [hname] at hstart
    rcases hdoc : (session.harvest f.name (f.scanner.next.triviaSince f.scanner.triviaCount)
        none).takeDoc f.name f.scanner.next.token.line
        (f.scanner.next.triviaSince f.scanner.triviaCount) with ⟨fault | _, s⟩
    · rw [hdoc] at hstart
      exact ⟨_, hstart, nofun⟩
    · rw [hdoc] at hstart
      have hall := hstart.comesTo (comesTo_readDeclaration resolve hplaced)
      rw [List.append_assoc] at hall
      exact hall

end Run

/-! ## One act -/

namespace OpenFile

variable {f g : OpenFile}

theorem Reached.readsOn (h : f.Reached) (hg : f.ReadsOn g) : g.Reached := by
  obtain ⟨t, ht, rfl⟩ := hg
  exact Scanner.Reads.trans h ht

theorem reached_start (name source : String) (directory : Option String) :
    (start name source directory).Reached :=
  .refl _

theorem reached_of_nil : ∀ f ∈ ([] : List OpenFile), f.Reached :=
  fun _ hf => absurd hf List.not_mem_nil

end OpenFile

namespace Course

variable {c : Course} {r : Run} {loader : Loader}

/-- What is found for a request is opened, or ends the call. -/
theorem becomes_enter (c : Course) (loader : Loader) (q : Request) (r : Run)
    (event : String → Event) :
    r.Becomes (c.enter loader q r event).run (q.happenings (loader.load q.location)) := by
  unfold enter Request.answer Request.happenings
  generalize loader.load q.location = found
  have hcancel : r.session.Becomes (if found.cancels then r.session.cancel else r.session) [] := by
    split
    · exact .of_eq rfl rfl rfl rfl
    · exact .refl _
  dsimp only
  cases found.content with
  | error fault => exact (Run.Becomes.of_session _ hcancel).trans (.of_walk _ rfl rfl rfl)
  | ok text =>
    have hopen := Run.Becomes.of_session r.files (hcancel.trans (.visit _ q.location.key))
    exact hopen.trans (.of_walk _ rfl rfl rfl)

theorem reached_enter (hr : ∀ f ∈ r.files, f.Reached) (c : Course) (loader : Loader) (q : Request)
    (event : String → Event) : ∀ f ∈ (c.enter loader q r event).run.files, f.Reached := by
  unfold enter Request.answer
  generalize loader.load q.location = found
  dsimp only
  cases found.content with
  | error fault => exact OpenFile.reached_of_nil
  | ok text =>
    intro f hf
    rcases List.mem_cons.1 hf with rfl | hf
    · exact OpenFile.reached_start _ _ _
    · exact hr f hf

/-- **One round.** -/
theorem becomes_round (hc : ∀ f ∈ c.run.files, f.Reached) (loader : Loader) :
    c.run.Becomes (c.act (.round loader)).run (c.run.happenings loader) ∧
      ∀ f ∈ (c.act (.round loader)).run.files, f.Reached := by
  obtain ⟨⟨session, files⟩, nest, log⟩ := c
  unfold act Run.happenings
  dsimp only
  cases files with
  | nil => exact ⟨.refl _, OpenFile.reached_of_nil⟩
  | cons f outer =>
    rw [Run.advance_of_files loader.resolve rfl]
    dsimp only
    by_cases hcancelled : session.isCancelled = true
    · rw [if_pos hcancelled, if_pos hcancelled]
      exact ⟨.of_walk session rfl rfl rfl, OpenFile.reached_of_nil⟩
    · rw [if_neg hcancelled, if_neg hcancelled]
      have hf : f.Reached := hc f List.mem_cons_self
      have houter : ∀ g ∈ outer, g.Reached := fun g hg => hc g (List.mem_cons_of_mem _ hg)
      have hread : ∀ g, f.ReadsOn g → ∀ g' ∈ g :: outer, g'.Reached := by
        intro g hg g' hg'
        rcases List.mem_cons.1 hg' with rfl | hg'
        · exact hf.readsOn hg
        · exact houter g' hg'
      obtain ⟨files, hbecomes, hfiles⟩ := Run.comesTo_readFile loader.resolve session outer hf
      have hturns := Run.turns_readFile loader.resolve session f outer
      generalize Run.readFile loader.resolve session f outer = stage at hbecomes hfiles hturns
      cases hturns with
      | left hs =>
        obtain rfl := hfiles _ rfl
        exact ⟨hbecomes.trans (.refl _), houter⟩
      | read hs hg =>
        obtain rfl := hfiles _ rfl
        exact ⟨hbecomes.trans (.refl _), hread _ hg⟩
      | failed failure hs =>
        exact ⟨hbecomes.trans (.of_walk _ rfl rfl rfl), OpenFile.reached_of_nil⟩
      | wanting q hs hg =>
        obtain rfl := hfiles _ rfl
        exact ⟨hbecomes.trans (becomes_enter _ loader q _ .included),
          reached_enter (hread _ hg) _ loader q .included⟩

/-- **One act.** -/
theorem becomes_act (hc : ∀ f ∈ c.run.files, f.Reached) (a : Act) :
    c.run.Becomes (c.act a).run (c.happenings a) ∧ ∀ f ∈ (c.act a).run.files, f.Reached := by
  cases a with
  | cancel => exact ⟨.of_session _ (.of_eq rfl rfl rfl rfl), hc⟩
  | round loader => exact becomes_round hc loader
  | source loader name text =>
    unfold act happenings
    dsimp only
    split
    next hempty =>
      obtain ⟨⟨session, files⟩, nest, log⟩ := c
      obtain rfl : files = [] := List.isEmpty_iff.1 hempty
      refine ⟨(Run.Becomes.of_session _ (.visit session (loader.resolve name).key)).trans
        (.of_walk _ rfl rfl rfl), fun f hf => ?_⟩
      rw [List.mem_singleton.1 hf]
      exact OpenFile.reached_start _ _ _
    · exact ⟨.refl _, hc⟩
  | file loader path =>
    unfold act happenings
    dsimp only
    split
    · cases c.run.session.request loader.resolve path none with
      | error failure => exact ⟨.refl _, hc⟩
      | ok q => exact ⟨becomes_enter c loader q c.run .file, reached_enter hc c loader q .file⟩
    · exact ⟨.refl _, hc⟩

/-- **Any number of acts.** -/
theorem becomes_after (hc : ∀ f ∈ c.run.files, f.Reached) (acts : List Act) :
    c.run.Becomes (c.after acts).run (c.history acts) := by
  induction acts generalizing c with
  | nil => exact .refl _
  | cons a acts ih =>
    obtain ⟨hbecomes, hreached⟩ := becomes_act hc a
    exact hbecomes.trans (ih hreached)

/-- No level of what a session has read has two namespaces with the same key. -/
theorem isKeyed_tree_after (options : ReadOptions) (acts : List Act) :
    ((start options).after acts).run.session.tree.IsKeyed := by
  have h := becomes_after (c := start options) OpenFile.reached_of_nil acts
  rw [Session.tree, h.session.builder_eq]
  exact Tree.isKeyed_after _

/-! ## Documentation -/

/-- What the history of a session tells about documentation. -/
structure Documented (c : Course) (h : History) : Prop where
  /-- The tree is built by the steps of the history, which add its declarations. -/
  builder_eq : c.run.session.builder = Builder.empty.after h.edits
  /-- The open files are read as far as the history tells: up to the end of the declaration that
  was read last, or not at all. -/
  places_eq : c.run.files.map OpenFile.place = h.places
  /-- A declaration starts from where its file is read to, so that the comments before it are those
  that follow the declaration before it. -/
  start : ∀ before place first later, h = before ++ .starts place first :: later →
    (History.places before).head? = some place
  /-- A declaration has the documentation of the latest declaration start that has some, since the
  declaration that was added before it. -/
  doc_eq : ∀ before e later, h = before ++ .edits (.entry e) :: later →
    e.doc = History.docDue before
  /-- There is one warning for each declaration start with several documentation comments. -/
  warnings_eq : c.run.session.warnings.toList = h.filterMap Happening.warning?

/-- **Documentation goes to one declaration.**  Whatever happens in a session, with whatever loader,
its history tells the documentation of every declaration and all warnings; and what the user asks of
a session with the same files throughout, with all the includes that follow, happens in this way. -/
theorem documented_after (options : ReadOptions) :
    (∀ acts, ((start options).after acts).Documented ((start options).history acts)) ∧
      ∀ files (calls : List Session.Call), ∃ acts log, (start options).after acts =
        idle (calls.foldl (fun s call => (s.perform files call).2) (.start options)) log := by
  refine ⟨fun acts => ?_, fun files calls => exists_after_performs files (.start options) [] calls⟩
  have h := becomes_after (c := start options) OpenFile.reached_of_nil acts
  refine ⟨h.session.builder_eq, h.places_eq, ?_, ?_, ?_⟩
  · exact fun before place first later hx => h.starts before _ later hx place first rfl
  · intro before e later hx
    rw [← History.foldl_await]
    exact h.session.documented before _ later hx e rfl
  · rw [h.session.warnings_eq]
    exact List.nil_append _

end Course

end AcsOutline
