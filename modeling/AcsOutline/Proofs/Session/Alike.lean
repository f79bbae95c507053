import AcsOutline.Document
import AcsOutline.Proofs.Session.Includes
import AcsOutline.Proofs.Session.Labels
import AcsOutline.Proofs.Session.Passages
import AcsOutline.Proofs.Tree.Alike

/-!
# Sources that say the same declare the same

Two runs over sources that say the same go round for round together (`Run.alike_step`): the files
that they have open are read up to like tokens, and what they have declared so far is the same, with
the same documentation (`Session.Alike`).  So both end well, with trees that declare the same, or
both fail, with one code and in one form (`Document.alike_of_relaid`).

Lines, places and task notes have no part in this: they are kept in trees and failures, but nothing
that is read depends on them.
-/

namespace AcsOutline

/-- Two sessions that have declared the same so far and go on in the same way. -/
structure Session.Alike (s s' : Session) : Prop where
  options_eq : s.options = s'.options
  builder : s.builder.Alike s'.builder
  pendingDoc_eq : s.pendingDoc = s'.pendingDoc
  visited_eq : s.visited = s'.visited
  isCancelled_eq : s.isCancelled = s'.isCancelled

/-- Two files in which the same is left to read. -/
structure OpenFile.Alike (f f' : OpenFile) : Prop where
  directory_eq : f.directory = f'.directory
  scanner : f.scanner.Relaid .all f'.scanner

/-- Two runs that have declared the same and have the same left to read. -/
structure Run.Alike (r r' : Run) : Prop where
  session : r.session.Alike r'.session
  files : List.Forall₂ OpenFile.Alike r.files r'.files

/-- Failures with one code and in one form. -/
structure Failure.Alike (f f' : Failure) : Prop where
  code_eq : f.diagnostic.code = f'.diagnostic.code
  form_eq : f.form = f'.form

/-- Requests for one file, both from an include or both from the user. -/
structure Request.Alike (q q' : Request) : Prop where
  location_eq : q.location = q'.location
  isSome_eq : q.site.isSome = q'.site.isSome

/-- Two rounds that come to the same. -/
inductive Step.Alike : Step → Step → Prop where
  | finished {s s' : Session} (hs : s.Alike s') : Alike (.finished s) (.finished s')
  | failed {f f' : Failure} {s s' : Session} (hf : f.Alike f') (hs : s.Alike s') :
    Alike (.failed f s) (.failed f' s')
  | reading {r r' : Run} (hr : r.Alike r') : Alike (.reading r) (.reading r')

/-- Two declarations that come to the same. -/
inductive Stage.Alike : Stage → Stage → Prop where
  | over {s s' : Step} (hs : s.Alike s') : Alike (.over s) (.over s')
  | wanting {q q' : Request} {r r' : Run} (hq : q.Alike q') (hr : r.Alike r') :
    Alike (.wanting q r) (.wanting q' r')

/-- Two documents that declare the same, or two failures that are alike. -/
def Document.Alike : Except Failure Document → Except Failure Document → Prop
  | .ok d, .ok d' => d.tree.Alike d'.tree
  | .error f, .error f' => f.Alike f'
  | _, _ => False

/-! ## Failures -/

/-- An include is at fault in both, or in both the file itself. -/
theorem alike_failureOf {path path' : String} {site site' : Option IncludeSite} {fault fault' : Fault}
    (hcode : fault.code = fault'.code) (hsite : site.isSome = site'.isSome) :
    (failureOf path site fault).Alike (failureOf path' site' fault') := by
  refine ⟨?_, ?_⟩
  · rw [code_failureOf, code_failureOf, hcode]
  · cases site <;> cases site'
    · rfl
    · cases hsite
    · cases hsite
    · rfl

theorem OpenFile.alike_failure (f f' : OpenFile) {fault fault' : Fault} (line line' : Nat)
    {form form' : Option Form} (hcode : fault.code = fault'.code) (hform : form = form') :
    (f.failure fault line form).Alike (f'.failure fault' line' form') :=
  ⟨congrArg some hcode, hform⟩

/-! ## Sessions -/

namespace Session

variable {s s' : Session}

namespace Alike

/-- Task notes are no declarations. -/
theorem harvest (h : s.Alike s') (file file' : String) (ts ts' : List Trivia)
    (subject subject' : Option String) :
    (s.harvest file ts subject).Alike (s'.harvest file' ts' subject') := by
  rw [harvest_eq, harvest_eq]
  exact { h with builder := h.builder.notes _ _ }

theorem visit (h : s.Alike s') (key : String) : (s.visit key).Alike (s'.visit key) := by
  unfold Session.visit
  rw [h.visited_eq]
  split
  · exact h
  · exact { h with visited_eq := rfl }

theorem cancel (h : s.Alike s') : s.cancel.Alike s'.cancel :=
  { h with isCancelled_eq := rfl }

theorem withBuilder (h : s.Alike s') {b b' : Builder} (hb : b.Alike b') :
    Alike { s with builder := b } { s' with builder := b' } :=
  { h with builder := hb }

theorem addDeclaration (h : s.Alike s') {d d' : Declaration} (hd : d.unwritten = d'.unwritten)
    (line line' : Nat) : (s.addDeclaration d line).Alike (s'.addDeclaration d' line') :=
  { h with
    builder := h.builder.pushEntry ⟨hd, h.pendingDoc_eq⟩
    pendingDoc_eq := rfl }

end Alike

theorem getLast?_docsOf (trivia : List Trivia) : (docsOf trivia).getLast? =
    (docComments trivia).getLast?.map fun x => (Doc.ofComment x.text x.span).toOption := by
  rw [docsOf, List.getLast?_map]

/-- What the last documentation comment says decides whether documentation is at fault. -/
theorem fst_takeDoc (s : Session) (file : String) (line : Nat) (trivia : List Trivia) :
    (s.takeDoc file line trivia).1.mapError Fault.code =
      if (docsOf trivia).getLast? = some none then .error .unknownTag else .ok () := by
  rw [getLast?_docsOf]
  unfold Session.takeDoc
  dsimp only
  cases (docComments trivia).getLast? with
  | none => rfl
  | some last =>
    rw [Option.map_some]
    dsimp only
    rcases hdoc : Doc.ofComment last.text last.span with fault | doc
    · obtain ⟨tag, rfl⟩ := Doc.ofComment_eq_error hdoc
      rfl
    · rfl

/-- **Documentation that says the same is taken alike.** -/
theorem Alike.takeDoc (h : s.Alike s') {ts ts' : List Trivia} (hdocs : docsOf ts = docsOf ts')
    (file file' : String) (line line' : Nat) :
    (s.takeDoc file line ts).1.mapError Fault.code =
        (s'.takeDoc file' line' ts').1.mapError Fault.code ∧
      (s.takeDoc file line ts).2.Alike (s'.takeDoc file' line' ts').2 := by
  have hlast : ∀ us : List Trivia, ((docComments us).getLast?.bind fun x =>
      (Doc.ofComment x.text x.span).toOption) = (docsOf us).getLast?.bind id := by
    intro us
    rw [getLast?_docsOf]
    cases (docComments us).getLast? <;> rfl
  refine ⟨by rw [fst_takeDoc, fst_takeDoc, hdocs], ?_, ?_, ?_, ?_, ?_⟩
  · rw [options_takeDoc, options_takeDoc, h.options_eq]
  · rw [builder_takeDoc, builder_takeDoc]
    exact h.builder
  · rw [pendingDoc_takeDoc, pendingDoc_takeDoc, hlast, hlast, hdocs, h.pendingDoc_eq]
  · rw [visited_takeDoc, visited_takeDoc, h.visited_eq]
  · rw [(Continues.takeDoc _ _ _ _).isCancelled_eq, (Continues.takeDoc _ _ _ _).isCancelled_eq,
      h.isCancelled_eq]

end Session

/-! ## One declaration -/

/-- Declarations that are equal up to arrays are the same include, if they are one. -/
theorem Declaration.eq_includeFile_iff_of_unwritten {d d' : Declaration}
    (h : d.unwritten = d'.unwritten) (path : String) :
    d = .includeFile path ↔ d' = .includeFile path := by
  have hinclude : ∀ e : Declaration, e = .includeFile path ↔ e.unwritten = .includeFile path := by
    intro e
    cases e <;> simp [Declaration.unwritten]
  rw [hinclude d, hinclude d', h]

namespace Run

variable {resolve : String → Location} {session session' : Session} {f f' g g' : OpenFile}
  {outer outer' : List OpenFile} {r r' : Run}

theorem alike_follow (hs : session.Alike session') (hg : g.Alike g')
    (houter : List.Forall₂ OpenFile.Alike outer outer') (path : String)
    (site site' : IncludeSite) :
    (follow resolve path site session g outer).Alike
      (follow resolve path site' session' g' outer') := by
  have hrun : Run.Alike ⟨session, g :: outer⟩ ⟨session', g' :: outer'⟩ := ⟨hs, .cons hg houter⟩
  have htarget : includeTarget g path = includeTarget g' path := by
    rw [includeTarget, includeTarget, hg.directory_eq]
  unfold follow Session.request
  rw [hs.options_eq, htarget, hs.isCancelled_eq, hs.visited_eq]
  by_cases himplicit : session'.options.isImplicit path = true
  · rw [if_pos himplicit, if_pos himplicit]
    exact .over (.reading hrun)
  rw [if_neg himplicit, if_neg himplicit]
  by_cases hcancelled : session'.isCancelled = true
  · rw [if_pos hcancelled, if_pos hcancelled]
    exact .over (.failed (alike_failureOf rfl rfl) hs)
  rw [if_neg hcancelled, if_neg hcancelled]
  by_cases hvisited : session'.visited.contains (resolve (includeTarget g' path)).key = true
  · rw [if_pos hvisited, if_pos hvisited]
    exact .over (.failed (alike_failureOf rfl rfl) hs)
  · rw [if_neg hvisited, if_neg hvisited]
    exact .wanting ⟨rfl, rfl⟩ hrun

theorem alike_declare (hs : session.Alike session') (hg : g.Alike g')
    (houter : List.Forall₂ OpenFile.Alike outer outer') {declaration declaration' : Option Declaration}
    (h : Grammar.Unwritten declaration declaration') (first first' : Scanner) :
    (declare resolve declaration first session g outer).Alike
      (declare resolve declaration' first' session' g' outer') := by
  unfold declare
  dsimp only
  cases declaration with
  | none =>
    cases declaration' with
    | none => exact .over (.reading ⟨hs.harvest _ _ _ _ _ _, .cons hg houter⟩)
    | some d' => cases h
  | some d =>
    cases declaration' with
    | none => cases h
    | some d' =>
      have hd : d.unwritten = d'.unwritten := Option.some.inj h
      have hadded := (hs.addDeclaration hd first.token.line first'.token.line).harvest g.name g'.name
        (g.scanner.triviaSince first.triviaCount) (g'.scanner.triviaSince first'.triviaCount)
        (some d.label) (some d'.label)
      have hsame := Declaration.eq_includeFile_iff_of_unwritten hd
      dsimp only
      split
      next path =>
        obtain rfl := (hsame path).1 rfl
        exact alike_follow hadded hg houter path _ _
      next hno =>
        split
        next path => exact absurd ((hsame path).2 rfl) (hno path)
        next => exact .over (.reading ⟨hadded, .cons hg houter⟩)

theorem alike_readDeclaration (hs : session.Alike session') (hf : f.Alike f')
    (houter : List.Forall₂ OpenFile.Alike outer outer') {first first' : Scanner}
    (hfirst : first.Relaid .all first') :
    (readDeclaration resolve first session f outer).Alike
      (readDeclaration resolve first' session' f' outer') := by
  have hdesk : Desk.Like (Scanner.Relaid .all) Builder.Alike ⟨first, session.builder⟩
      ⟨first', session'.builder⟩ := ⟨hfirst, hs.builder⟩
  have hrecognize := like_recognize Scanner.likeness_relaid Builder.steady_alike hdesk
  unfold readDeclaration
  generalize recognize ⟨first, session.builder⟩ = result at hrecognize ⊢
  generalize recognize ⟨first', session'.builder⟩ = result' at hrecognize ⊢
  rcases result with ⟨declaration, desk⟩ | ⟨rejection, desk⟩ <;>
    rcases result' with ⟨declaration', desk'⟩ | ⟨rejection', desk'⟩
  · obtain ⟨hdeclaration, hdesk⟩ := hrecognize
    have hread : OpenFile.Alike { f with scanner := desk.scanner }
        { f' with scanner := desk'.scanner } := ⟨hf.directory_eq, hdesk.scanner⟩
    exact alike_declare (hs.withBuilder hdesk.builder) hread houter hdeclaration first first'
  · exact hrecognize.elim
  · exact hrecognize.elim
  · obtain ⟨hrejection, hdesk⟩ := hrecognize
    exact .over (.failed (f.alike_failure f' _ _ hrejection.fault.code_eq hrejection.form_eq)
      (hs.withBuilder hdesk.builder))

theorem alike_readFile (hs : session.Alike session') (hf : f.Alike f')
    (houter : List.Forall₂ OpenFile.Alike outer outer') :
    (readFile resolve session f outer).Alike (readFile resolve session' f' outer') := by
  have hfirst : f.scanner.next.Relaid .all f'.scanner.next := Scanner.likeness_relaid.next hf.scanner
  have hkind : f.scanner.next.token.kind = f'.scanner.next.token.kind := hfirst.token.kind_eq
  have hharvest := hs.harvest f.name f'.name (f.scanner.next.triviaSince f.scanner.triviaCount)
    (f'.scanner.next.triviaSince f'.scanner.triviaCount) none none
  have hdoc := hharvest.takeDoc hf.scanner.passage.1.docs_eq f.name f'.name
    f.scanner.next.token.line f'.scanner.next.token.line
  unfold readFile
  dsimp only
  rw [hkind]
  by_cases heof : f'.scanner.next.token.kind = .eof
  · rw [if_pos heof, if_pos heof]
    exact .over (.reading ⟨hharvest, houter⟩)
  rw [if_neg heof, if_neg heof]
  obtain ⟨hresult, htaken⟩ := hdoc
  generalize Session.takeDoc _ f.name _ _ = taken at hresult htaken ⊢
  generalize Session.takeDoc _ f'.name _ _ = taken' at hresult htaken ⊢
  rcases taken with ⟨fault | _, session₁⟩ <;> rcases taken' with ⟨fault' | _, session₁'⟩
  · exact .over (.failed (f.alike_failure f' _ _ (Except.error.inj hresult) rfl) htaken)
  · cases hresult
  · cases hresult
  · exact alike_readDeclaration htaken hf houter hfirst

/-- **Two runs read the same declaration.** -/
theorem alike_advance (resolve : String → Location) (h : r.Alike r') :
    (r.advance resolve).Alike (r'.advance resolve) := by
  obtain ⟨session, files⟩ := r
  obtain ⟨session', files'⟩ := r'
  obtain ⟨hs, hfiles⟩ := h
  cases hfiles with
  | nil => exact .over (.finished hs)
  | @cons f f' outer outer' hf houter =>
    rw [advance_of_files resolve rfl, advance_of_files resolve rfl]
    dsimp only at hs ⊢
    rw [hs.isCancelled_eq]
    by_cases hcancelled : session'.isCancelled = true
    · rw [if_pos hcancelled, if_pos hcancelled]
      exact .over (.failed (f.alike_failure f' _ _ rfl rfl) hs)
    · rw [if_neg hcancelled, if_neg hcancelled]
      exact alike_readFile hs hf houter

/-! ## The whole run -/

/-- The same is found for an include of both. -/
theorem alike_answer {q q' : Request} (hq : q.Alike q') (hr : r.Alike r') (found : Finding) :
    (q.answer found r).Alike (q'.answer found r') := by
  have hsession : Session.Alike (if found.cancels then r.session.cancel else r.session)
      (if found.cancels then r'.session.cancel else r'.session) := by
    split
    · exact hr.session.cancel
    · exact hr.session
  unfold Request.answer
  dsimp only
  cases found.content with
  | error fault =>
    refine .failed (alike_failureOf ?_ hq.isSome_eq) hsession
    cases fault <;> rfl
  | ok text =>
    rw [hq.location_eq]
    refine .reading ⟨hsession.visit _, .cons ⟨?_, Scanner.relaid_refl text⟩ hr.files⟩
    rw [Request.openFile, Request.openFile, hq.location_eq]
    rfl

/-- **Two runs take the same round.** -/
theorem alike_step (files : SourceFiles) (h : r.Alike r') : (r.step files).Alike (r'.step files) := by
  have hadvance := alike_advance files.resolve h
  unfold step
  generalize r.advance files.resolve = stage at hadvance ⊢
  generalize r'.advance files.resolve = stage' at hadvance ⊢
  rcases hadvance with hs | ⟨hq, hr⟩
  · exact hs
  · dsimp only
    rw [hq.location_eq]
    exact alike_answer hq hr _

/-- **Two runs come to the same end.** -/
theorem alike_complete (files : SourceFiles) (h : r.Alike r') :
    Option.Rel Failure.Alike (r.complete files).1 (r'.complete files).1 ∧
      (r.complete files).2.Alike (r'.complete files).2 := by
  fun_induction complete files r generalizing r' with
  | case1 r s e =>
    have hstep := alike_step files h
    rw [e] at hstep
    rw [complete_eq]
    generalize r'.step files = step' at hstep ⊢
    cases hstep with
    | finished hs => exact ⟨.none, hs⟩
  | case2 r f s e =>
    have hstep := alike_step files h
    rw [e] at hstep
    rw [complete_eq]
    generalize r'.step files = step' at hstep ⊢
    cases hstep with
    | failed hf hs => exact ⟨.some hf, hs⟩
  | case3 r r₁ e ih =>
    have hstep := alike_step files h
    rw [e] at hstep
    rw [complete_eq files r']
    generalize r'.step files = step' at hstep ⊢
    cases hstep with
    | reading hr => exact ih hr

end Run

/-- **Sources that say the same declare the same**, or fail alike. -/
theorem Document.alike_of_relaid (options : ReadOptions) (isCancelled : Bool) (files : SourceFiles)
    (name : String) {source source' : String}
    (h : (Scanner.ofString source).Relaid .all (Scanner.ofString source')) :
    Document.Alike (ofSource options isCancelled files name source)
      (ofSource options isCancelled files name source') := by
  let s := if isCancelled then (Session.start options).cancel else Session.start options
  have hs : s.Alike s := by
    refine ⟨rfl, ?_, rfl, rfl, rfl⟩
    have hbuilder : s.builder = .empty := by
      show (if isCancelled then _ else _ : Session).builder = _
      cases isCancelled <;> rfl
    rw [hbuilder]
    exact Builder.alike_empty
  have hrun : (Run.ofSource s files name source).Alike (Run.ofSource s files name source') :=
    ⟨hs.visit _, .cons ⟨rfl, h⟩ .nil⟩
  obtain ⟨hfailure, hsession⟩ := Run.alike_complete files hrun
  show Document.Alike (ofResult (s.readSource files name source))
    (ofResult (s.readSource files name source'))
  rw [Session.readSource_eq, Session.readSource_eq]
  generalize Run.complete files (Run.ofSource s files name source) = result at hfailure hsession ⊢
  generalize Run.complete files (Run.ofSource s files name source') = result' at hfailure hsession ⊢
  rcases result with ⟨_ | failure, session⟩ <;> rcases result' with ⟨_ | failure', session'⟩
  · exact hsession.builder.finish
  · cases hfailure
  · cases hfailure
  · cases hfailure with
    | some hf => exact hf

end AcsOutline
