import AcsOutline.Proofs.Scanner.Sites
import AcsOutline.Proofs.Session.Documentation

/-!
# Findings point into the text that they belong to

A failure carries the text of the file that it belongs to, and its labels are ranges of that text,
between characters of it; its line is one of the text, too (`Failure.Located`).  The same holds of a
warning and the file that is being read as the warning is given.

A label comes from a token or a comment, from the first and last token of an include, or from the end
of the input, and the text from the file that is being read then; after an include, that is the file
around the one that was asked for.  That the two fit is shown for each part of a round, and so for
every session (`Course.locates_after`).
-/

namespace AcsOutline

/-- The labels and the line of a failure have their places in the text that it carries. -/
structure Failure.Located (f : Failure) : Prop where
  /-- Each label ends in the text and not before it starts, and both its ends stand between
  characters. -/
  labels : ∀ label ∈ f.diagnostic.labels, label.span.start ≤ label.span.stop ∧
    label.span.stop ≤ f.source.utf8ByteSize ∧ label.span.Marks f.source.toList
  /-- The line is one of the text.  There is no text only where a file that the user asks for is not
  entered. -/
  line : (∃ path fault, f = failureOf path none fault) ∨ Text.HasLine f.source.toList f.line

/-- A warning has its place in a file. -/
structure Warning.LocatedIn (f : OpenFile) (w : Warning) : Prop where
  file_eq : w.file = f.name
  labels : ∀ label ∈ w.diagnostic.labels, label.span.start ≤ label.span.stop ∧
    label.span.stop ≤ f.source.utf8ByteSize ∧ label.span.Marks f.source.toList
  line : Text.HasLine f.source.toList w.line

/-- An include has its place in the text of the file that includes. -/
structure IncludeSite.Located (site : IncludeSite) : Prop where
  marks : site.span.Marks site.source.toList
  hasLine : Text.HasLine site.source.toList site.line

/-- What a step fails with has its place. -/
def Step.Located (step : Step) : Prop :=
  ∀ failure ∈ step.failure?, failure.Located

/-- The include that asks for a file has its place. -/
def Request.Located (q : Request) : Prop :=
  ∀ site ∈ q.site, site.Located

/-- What a stage fails with, or the include that it waits for, has its place. -/
def Stage.Located : Stage → Prop
  | .over step => step.Located
  | .wanting q _ => q.Located

/-! ## Failures -/

/-- A range of a text, with its bounds. -/
theorem Span.Marks.bounds {source : String} {r : Span} (h : r.Marks source.toList) :
    r.start ≤ r.stop ∧ r.stop ≤ source.utf8ByteSize ∧ r.Marks source.toList := by
  have hsize : source.utf8ByteSize = Text.byteLength source.toList := by
    rw [← Text.utf8ByteSize_ofList, String.ofList_toList]
  exact ⟨r.start_le_stop, hsize ▸ h.stop_le, h⟩

theorem OpenFile.located_failure {f : OpenFile} {fault : Fault} {line : Nat}
    (hlabels : ∀ label ∈ fault.labels, label.span.Marks f.source.toList)
    (hline : Text.HasLine f.source.toList line) (form : Option Form) :
    (f.failure fault line form).Located where
  labels label hlabel := (hlabels label hlabel).bounds
  line := .inr hline

/-- A file that is not entered is at fault as a whole, or its include is. -/
theorem located_failureOf (path : String) {site : Option IncludeSite} {fault : Fault}
    (hfault : fault.labels = []) (hsite : ∀ s ∈ site, s.Located) :
    (failureOf path site fault).Located := by
  cases site with
  | none =>
    have hlabels : (failureOf path none fault).diagnostic.labels = [] := hfault
    exact ⟨fun label hlabel => absurd (hlabels ▸ hlabel) List.not_mem_nil,
      .inl ⟨path, fault, rfl⟩⟩
  | some s =>
    have hs := hsite s rfl
    have hlabels : (failureOf path (some s) fault).diagnostic.labels =
        [.primary s.span "included here"] := by
      show fault.labels ++ _ = _
      rw [hfault, List.nil_append]
    refine ⟨fun label hlabel => ?_, .inr hs.hasLine⟩
    rw [hlabels] at hlabel
    rw [List.mem_singleton.1 hlabel]
    exact hs.marks.bounds

theorem Session.located_request (s : Session) (resolve : String → Location) (path : String)
    (site : Option IncludeSite) (hsite : ∀ s ∈ site, s.Located) :
    match s.request resolve path site with
    | .error failure => failure.Located
    | .ok q => q.Located := by
  unfold request
  by_cases hcancelled : s.isCancelled = true
  · rw [if_pos hcancelled]
    exact located_failureOf path rfl hsite
  · rw [if_neg hcancelled]
    by_cases hvisited : s.visited.contains (resolve path).key = true
    · rw [if_pos hvisited]
      exact located_failureOf path rfl hsite
    · rw [if_neg hvisited]
      exact hsite

theorem Request.located_answer {q : Request} (h : q.Located) (found : Finding) (r : Run) :
    (q.answer found r).Located := by
  unfold answer
  dsimp only
  cases found.content with
  | error fault =>
    intro failure hfailure
    obtain rfl := Option.some.inj hfailure
    exact located_failureOf q.path (by cases fault <;> rfl) h
  | ok text => exact fun _ hfailure => by cases hfailure

/-! ## Documentation -/

/-- Documentation is at fault for a tag, in the comment itself. -/
theorem Doc.ofComment_eq_error {text : String} {comment : Span} {fault : Fault}
    (h : ofComment text comment = .error fault) : ∃ tag, fault = .unknownTag tag comment := by
  have hline : ∀ p line fault, Progress.readLine comment p line = .error fault →
      ∃ tag, fault = .unknownTag tag comment := by
    intro p line fault h
    unfold Progress.readLine at h
    split at h
    · dsimp only at h
      split at h
      · exact ⟨_, (Except.error.inj h).symm⟩
      · cases h
    · cases h
  have hlines : ∀ lines p, List.foldlM (Progress.readLine comment) p lines = .error fault →
      ∃ tag, fault = .unknownTag tag comment := by
    intro lines
    induction lines with
    | nil => exact fun _ h => by cases h
    | cons line lines ih =>
      intro p h
      rw [List.foldlM_cons] at h
      cases hread : Progress.readLine comment p line with
      | error fault' =>
        rw [hread] at h
        obtain rfl := Except.error.inj h
        exact hline p line _ hread
      | ok p' =>
        rw [hread] at h
        exact ih p' h
  unfold ofComment at h
  dsimp only at h
  generalize (List.splitOn '\n' _) = lines at h
  cases hfold : List.foldlM (Progress.readLine comment) .start lines with
  | error fault' =>
    rw [hfold] at h
    obtain rfl := Except.error.inj h
    exact hlines lines _ hfold
  | ok p =>
    rw [hfold] at h
    cases h

theorem Session.labels_takeDoc {source : List Char} {s s' : Session} {file : String} {line : Nat}
    {trivia : List Trivia} {fault : Fault} (htrivia : ∀ x ∈ trivia, x.span.Marks source)
    (h : s.takeDoc file line trivia = (.error fault, s')) :
    ∀ label ∈ fault.labels, label.span.Marks source := by
  unfold takeDoc at h
  dsimp only at h
  cases hlast : (docComments trivia).getLast? with
  | none =>
    rw [hlast] at h
    cases h
  | some last =>
    rw [hlast] at h
    dsimp only at h
    cases hdoc : Doc.ofComment last.text last.span with
    | ok doc =>
      rw [hdoc] at h
      cases h
    | error fault' =>
      rw [hdoc] at h
      obtain rfl := Except.error.inj (Prod.mk.inj h).1
      obtain ⟨tag, rfl⟩ := Doc.ofComment_eq_error hdoc
      have hmem := List.mem_of_getLast? hlast
      intro label hlabel
      rw [List.mem_singleton.1 hlabel]
      exact htrivia last (List.mem_of_mem_filter hmem)

/-! ## One round -/

namespace Run

variable {resolve : String → Location} {session : Session} {f : OpenFile} {outer : List OpenFile}
  {first : Scanner}

theorem located_follow (path : String) {site : IncludeSite} (h : site.Located) (session : Session)
    (f : OpenFile) (outer : List OpenFile) :
    (follow resolve path site session f outer).Located := by
  unfold follow
  split
  · exact fun _ hfailure => by cases hfailure
  · have hrequest := session.located_request resolve (includeTarget f path)
      (some site) fun s hs => Option.some.inj hs ▸ h
    split
    next failure herror =>
      rw [herror] at hrequest
      intro failure' hfailure
      exact Option.some.inj hfailure ▸ hrequest
    next q hok =>
      rw [hok] at hrequest
      exact hrequest

/-- An include has its place from its first token to its last one. -/
theorem located_declare (resolve : String → Location) (declaration : Option Declaration)
    (hfirst : first.Sited f.source.toList) (hf : f.scanner.Sited f.source.toList)
    (session : Session) (outer : List OpenFile) :
    (declare resolve declaration first session f outer).Located := by
  unfold declare
  dsimp only
  split
  · exact fun _ hfailure => by cases hfailure
  · split
    · exact located_follow _ ⟨hfirst.token.marks.union hf.token.marks, hfirst.token.hasLine⟩ _ _ _
    · exact fun _ hfailure => by cases hfailure

theorem located_readDeclaration (resolve : String → Location)
    (hfirst : first.Sited f.source.toList) (session : Session) (outer : List OpenFile) :
    (readDeclaration resolve first session f outer).Located := by
  unfold readDeclaration
  cases hrecognize : recognize ⟨first, session.builder⟩ with
  | error rejection desk =>
    obtain ⟨hlabels, hdesk⟩ := hfirst.recognize hrecognize
    intro failure hfailure
    obtain rfl := Option.some.inj hfailure
    exact OpenFile.located_failure hlabels hdesk.token.hasLine _
  | ok declaration desk =>
    have hdesk := (reads_recognize hrecognize).sited hfirst
    exact located_declare (f := { f with scanner := desk.scanner }) resolve declaration hfirst hdesk
      _ outer

theorem located_readFile (resolve : String → Location) (hf : f.scanner.Sited f.source.toList)
    (session : Session) (outer : List OpenFile) :
    (readFile resolve session f outer).Located := by
  unfold readFile
  dsimp only
  split
  · exact fun _ hfailure => by cases hfailure
  · split
    next fault s htake =>
      have hlabels := Session.labels_takeDoc (fun x hx => hf.marks_of_mem_triviaSince hx) htake
      intro failure hfailure
      obtain rfl := Option.some.inj hfailure
      exact OpenFile.located_failure hlabels hf.next.token.hasLine none
    · exact located_readDeclaration resolve hf.next _ outer

/-- **What one round fails with has its place**, and so has the include that it waits for. -/
theorem located_advance (resolve : String → Location) {r : Run}
    (hr : ∀ f ∈ r.files, f.scanner.Sited f.source.toList) : (r.advance resolve).Located := by
  unfold advance
  split
  · exact fun _ hfailure => by cases hfailure
  next f outer hfiles =>
    have hf := hr f (hfiles ▸ List.mem_cons_self)
    split
    · intro failure hfailure
      obtain rfl := Option.some.inj hfailure
      exact OpenFile.located_failure (fun _ hlabel => by cases hlabel) hf.hasLine none
    · exact located_readFile resolve hf _ outer

end Run

/-- A file that was only read on has its places. -/
theorem OpenFile.Reached.sited {f : OpenFile} (h : f.Reached) :
    f.scanner.Sited f.source.toList :=
  Scanner.Reads.sited h (Scanner.sited_ofList f.source.toList)

/-- What happens as a declaration is read is that the tree is built and that it ends. -/
theorem OpenFile.starts_not_mem_reading {f : OpenFile} {s : Session} {first : Scanner}
    {place : ReadPoint} {t : Token} : .starts place t ∉ f.reading s first := by
  unfold reading
  cases recognize ⟨first, s.builder⟩ with
  | error rejection desk => simp
  | ok declaration desk => cases declaration <;> simp

/-- A declaration starts with the token that follows what was read. -/
theorem OpenFile.eq_of_starts_mem {f : OpenFile} {s : Session} {place : ReadPoint} {first : Token}
    (h : .starts place first ∈ f.happenings s) :
    place = f.place ∧ first = f.scanner.next.token := by
  unfold happenings at h
  dsimp only at h
  split at h
  · simp at h
  · rcases List.mem_append.1 h with hnote | hmem
    · simp at hnote
    · rcases List.mem_cons.1 hmem with hstart | hmem
      · cases hstart
        exact ⟨rfl, rfl⟩
      · split at hmem
        · cases hmem
        · exact absurd hmem starts_not_mem_reading

/-! ## Sessions -/

namespace Course

variable {c : Course}

/-- The files of a course are only read on. -/
theorem reached_after (hc : ∀ f ∈ c.run.files, f.Reached) (acts : List Act) :
    ∀ f ∈ (c.after acts).run.files, f.Reached := by
  induction acts generalizing c with
  | nil => exact hc
  | cons a acts ih => exact ih (becomes_act hc a).2

theorem located_of_failure? (hc : ∀ f ∈ c.run.files, f.Reached) {a : Act} {failure : Failure}
    (h : c.failure? a = some failure) : failure.Located := by
  cases a with
  | cancel | source => cases h
  | file loader path =>
    unfold failure? at h
    dsimp only at h
    split at h
    · have hrequest := c.run.session.located_request loader.resolve path none nofun
      cases hq : c.run.session.request loader.resolve path none with
      | error failure' =>
        rw [hq] at h hrequest
        obtain rfl := Option.some.inj h
        exact hrequest
      | ok q =>
        rw [hq] at h hrequest
        exact Request.located_answer hrequest _ _ failure h
    · cases h
  | round loader =>
    have hadvance := Run.located_advance loader.resolve fun f hf => (hc f hf).sited
    unfold failure? at h
    dsimp only at h
    rcases hstage : c.run.advance loader.resolve with step | ⟨q, r⟩
    · rw [hstage] at h hadvance
      exact hadvance failure h
    · rw [hstage] at h hadvance
      exact Request.located_answer hadvance _ _ failure h

/-- A declaration starts in the innermost file, with the token that follows what was read. -/
theorem eq_of_starts_mem {a : Act} {place : ReadPoint} {first : Token}
    (h : .starts place first ∈ c.happenings a) : ∃ f outer, c.run.files = f :: outer ∧
      place = f.place ∧ first = f.scanner.next.token := by
  have hrequest : ∀ (q : Request) (found : Finding), .starts place first ∉ q.happenings found := by
    intro q found hmem
    unfold Request.happenings at hmem
    cases hcontent : found.content <;> simp [hcontent] at hmem
  cases a with
  | cancel => cases h
  | source loader name text =>
    unfold happenings at h
    dsimp only at h
    split at h
    · exact nomatch List.mem_singleton.1 h
    · cases h
  | file loader path =>
    unfold happenings at h
    dsimp only at h
    split at h
    · split at h
      · cases h
      · exact absurd h (hrequest _ _)
    · cases h
  | round loader =>
    have hstage : ∀ stage : Stage, .starts place first ∉ stage.happenings loader := by
      intro stage hmem
      rcases stage with (s | ⟨failure, s⟩ | r) | ⟨q, r⟩
      · cases hmem
      · exact nomatch List.mem_singleton.1 hmem
      · cases hmem
      · exact hrequest q _ hmem
    obtain hmem | hmem := List.mem_append.1 h
    · split at hmem
      · cases hmem
      next f outer hfiles =>
        split at hmem
        · cases hmem
        · refine ⟨f, outer, hfiles, ?_⟩
          exact OpenFile.eq_of_starts_mem hmem
    · exact absurd hmem (hstage _)

/-- A warning that is given has its place in the innermost file. -/
theorem locatedIn_of_warning (hc : ∀ f ∈ c.run.files, f.Reached) {a : Act} {w : Warning}
    (h : w ∈ (c.happenings a).filterMap Happening.warning?) :
    ∃ f outer, c.run.files = f :: outer ∧ w.LocatedIn f := by
  obtain ⟨x, hx, hwarning⟩ := List.mem_filterMap.1 h
  cases x with
  | starts place first =>
    obtain ⟨f, outer, hfiles, rfl, rfl⟩ := eq_of_starts_mem hx
    have hf := hc f (hfiles ▸ List.mem_cons_self)
    dsimp only [Happening.warning?] at hwarning
    split at hwarning
    · obtain ⟨last, hlast, rfl⟩ := Option.map_eq_some_iff.1 hwarning
      rw [← hf.docComments_eq] at hlast
      have hmem := List.mem_of_mem_filter (List.mem_of_getLast? hlast)
      refine ⟨f, outer, hfiles, rfl, fun label hlabel => ?_, hf.sited.next.token.hasLine⟩
      rw [List.mem_singleton.1 hlabel]
      exact (hf.sited.marks_of_mem_triviaSince hmem).bounds
    · cases hwarning
  | _ => cases hwarning

/-- What is found in a session at one moment has its place. -/
structure Locates (c : Course) : Prop where
  /-- The failure that ends a call points into the text that it carries. -/
  failure : ∀ a failure, c.failure? a = some failure → failure.Located
  /-- A warning that is recorded points into the file that is being read then. -/
  warnings : ∀ a, ∃ new, (c.act a).run.session.warnings.toList =
    c.run.session.warnings.toList ++ new ∧
      ∀ w ∈ new, ∃ f outer, c.run.files = f :: outer ∧ w.LocatedIn f

theorem locates (hc : ∀ f ∈ c.run.files, f.Reached) : c.Locates where
  failure _ _ h := located_of_failure? hc h
  warnings a := ⟨_, (becomes_act hc a).1.session.warnings_eq, fun _ hw => locatedIn_of_warning hc hw⟩

/-- **Findings point into their text.**  Whatever happens in a session, with whatever loader, the
labels and the line of every failure have their places in the text that it carries, and those of
every warning in the file that is being read as it is recorded.  So do those of the failure that a
call of the user ends with; and the calls of a session with the same files throughout happen in this
way. -/
theorem locates_after (options : ReadOptions) :
    (∀ acts, ((start options).after acts).Locates) ∧
    (∀ (files : SourceFiles) (s : Session) (call : Session.Call) (failure : Failure),
      (s.perform files call).1 = some failure → failure.Located) ∧
    (∀ files (calls : List Session.Call), ∃ acts log, (start options).after acts =
      idle (calls.foldl (fun s call => (s.perform files call).2) (.start options)) log) ∧
    ∀ (files : SourceFiles) s log call, ∃ acts a n log',
      acts ++ [a] = .ofCall files call :: List.replicate n (.round (.ofFiles files)) ∧
      (idle s log).failures acts = [] ∧
      ((idle s log).after acts).failure? a = (s.perform files call).1 ∧
      (idle s log).after (acts ++ [a]) = idle (s.perform files call).2 log' := by
  refine ⟨fun acts => locates (reached_after OpenFile.reached_of_nil acts),
    fun files s call failure hfailure => ?_,
    fun files calls => exists_after_performs files (.start options) [] calls,
    exists_after_perform⟩
  obtain ⟨acts, a, n, log, -, -, hlast, -⟩ := exists_after_perform files s [] call
  exact located_of_failure? (reached_after OpenFile.reached_of_nil acts) (hlast.trans hfailure)

/-- A file that is not there is included behind a comment with a character of two bytes: the failure
is on the second line, and its label goes over the include. -/
theorem locates_after_missing_include :
    ∃ failure, ((Session.start .standard).perform (.ofList [])
        (.source "a.acs" "/*é*/\n#include \"b.acs\"")).1 = some failure ∧ failure.Located ∧
      failure.line = 2 ∧
      failure.diagnostic.labels.map (fun label => (label.span.start, label.span.stop)) =
        [(7, 23)] := by
  let run := Run.ofSource (.start .standard) (.ofList []) "a.acs" "/*é*/\n#include \"b.acs\""
  have hstep : (run.step (.ofList [])).failure?.map (fun failure => (failure.line,
      failure.diagnostic.labels.map fun label => (label.span.start, label.span.stop))) =
      some (2, [(7, 23)]) := by
    decide +kernel
  obtain ⟨failure, hfailure, hfound⟩ := Option.map_eq_some_iff.1 hstep
  obtain ⟨hline, hlabels⟩ : failure.line = 2 ∧
      failure.diagnostic.labels.map (fun label => (label.span.start, label.span.stop)) =
        [(7, 23)] := by
    simpa only [Prod.mk.injEq] using hfound
  have hperform : ((Session.start .standard).perform (.ofList [])
      (.source "a.acs" "/*é*/\n#include \"b.acs\"")).1 = some failure := by
    show (run.complete (.ofList [])).1 = some failure
    rw [Run.complete_eq]
    cases hend : run.step (.ofList []) with
    | failed failure' s =>
      rw [hend] at hfailure
      exact hfailure
    | finished s | reading r =>
      rw [hend] at hfailure
      cases hfailure
  exact ⟨failure, hperform, (locates_after .standard).2.1 _ _ _ failure hperform, hline, hlabels⟩

end Course

end AcsOutline
