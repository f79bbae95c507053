import AcsOutline.Proofs.Grammar.Footprint
import AcsOutline.Proofs.Scanner.Comments
import AcsOutline.Proofs.Session.Guard
import AcsOutline.Proofs.Tree.Edits

/-!
# The history of a session

What happens in a session is read off its states: files are opened and left, declarations start and
end, and the tree is built step by step (`Course.history`).  One round adds `Run.happenings`.  What
the session holds afterwards can be told from what happens (`Session.Becomes`): the tree, the
documentation that waits, and the warnings.

Which comments stand before a declaration is told by offsets alone, whatever the scanner has skipped
and gone back over on the way (`Scanner.commentsIn`).
-/

namespace AcsOutline

/-- Each element of a list fits the elements before it. -/
def EachAfter {α : Type} (P : List α → α → Prop) (l : List α) : Prop :=
  ∀ before x later, l = before ++ x :: later → P before x

section EachAfter

variable {α : Type} {P : List α → α → Prop} {l l' : List α} {x : α}

theorem eachAfter_nil : EachAfter P [] := by
  intro before x later h
  cases before <;> cases h

theorem EachAfter.cons (hx : P [] x) (hl : EachAfter (fun before => P (x :: before)) l) :
    EachAfter P (x :: l) := by
  intro before y later h
  cases before with
  | nil =>
    cases h
    exact hx
  | cons z before =>
    cases h
    exact hl before y later rfl

theorem EachAfter.append (hl : EachAfter P l)
    (hl' : EachAfter (fun before => P (l ++ before)) l') : EachAfter P (l ++ l') := by
  induction l generalizing P with
  | nil => exact hl'
  | cons x l ih =>
    refine .cons (hl [] x l rfl) (ih ?_ hl')
    intro before y later h
    exact hl (x :: before) y later (congrArg (x :: ·) h)

end EachAfter

/-- How far a file is read: what stands before the offset. -/
structure ReadPoint where
  /-- How the file is named. -/
  file : String
  source : String
  offset : Nat
deriving DecidableEq, Inhabited

/-- Something that happens in a session. -/
inductive Happening where
  /-- A file is opened, to be read before everything else. -/
  | opens (file source : String)
  /-- A declaration is come upon from a place in the innermost file. -/
  | starts (place : ReadPoint) (first : Token)
  /-- A step is taken in building the tree. -/
  | edits (edit : Builder.Edit)
  /-- A declaration is read: its first token, its last one, and what it declares. -/
  | ends (first last : Token) (declaration : Option Declaration)
  /-- The innermost file is read to its end. -/
  | leaves
  /-- A failure ends the reading of all files. -/
  | stops
deriving Inhabited

namespace Happening

/-- The step in building the tree, if it is one. -/
def edit? : Happening → Option Builder.Edit
  | edits e => some e
  | _ => none

/-- The documentation comments before the first token of a declaration. -/
def leadingDocs (place : ReadPoint) (first : Token) : List Trivia :=
  Session.docComments (Scanner.commentsIn place.source place.offset first.span.start)

/-- The documentation that a declaration start has: that of the last documentation comment before
it, unless this is at fault. -/
def doc? : Happening → Option Doc
  | starts place first =>
    (leadingDocs place first).getLast?.bind fun last => (Doc.ofComment last.text last.span).toOption
  | _ => none

/-- The warning at a declaration start that has several documentation comments before it. -/
def warning? : Happening → Option Warning
  | starts place first =>
    if (leadingDocs place first).length > 1 then
      (leadingDocs place first).getLast?.map fun last =>
        .severalComments place.file first.line last.span
    else none
  | _ => none

/-- Whether a declaration starts. -/
def isStart : Happening → Bool
  | starts _ _ => true
  | _ => false

/-- Whether a declaration is added to the tree. -/
def isEntry : Happening → Bool
  | edits (.entry _) => true
  | _ => false

/-- The open files, the innermost first, each with how far it is read. -/
def walk (opened : List ReadPoint) : Happening → List ReadPoint
  | opens file source => ⟨file, source, 0⟩ :: opened
  | ends _ last _ =>
    match opened with
    | [] => []
    | place :: outer => { place with offset := last.span.stop } :: outer
  | leaves => opened.tail
  | stops => []
  | starts _ _ | edits _ => opened

/-- The documentation that waits for a declaration. -/
def await (pending : Option Doc) : Happening → Option Doc
  | edits (.entry _) => none
  | x => x.doc?.or pending

theorem await_of_isEntry {x : Happening} (h : x.isEntry = true) (pending : Option Doc) :
    x.await pending = none := by
  cases x with
  | edits e =>
    cases e with
    | entry e => rfl
    | _ => cases h
  | _ => cases h

theorem await_of_not_isEntry {x : Happening} (h : x.isEntry = false) (pending : Option Doc) :
    x.await pending = x.doc?.or pending := by
  cases x with
  | edits e =>
    cases e with
    | entry e => cases h
    | _ => rfl
  | _ => rfl

end Happening

/-- What happens in a session, in order. -/
abbrev History := List Happening

namespace History

/-- The steps in building the tree. -/
def edits (h : History) : List Builder.Edit :=
  h.filterMap Happening.edit?

/-- The open files, the innermost first, each with how far it is read. -/
def places (h : History) : List ReadPoint :=
  h.foldl Happening.walk []

/-- The documentation that is due: that of the latest declaration start which has some, of those
since the last declaration was added. -/
def docDue (h : History) : Option Doc :=
  (h.reverse.takeWhile fun x => !x.isEntry).findSome? Happening.doc?

theorem edits_append (h h' : History) : edits (h ++ h') = edits h ++ edits h' :=
  List.filterMap_append

theorem edits_map (es : List Builder.Edit) : edits (es.map .edits) = es := by
  rw [edits, List.filterMap_map]
  exact List.filterMap_some

/-- The documentation that is due is the one that waits. -/
theorem foldl_await (h : History) : h.foldl Happening.await none = docDue h := by
  induction h using List.reverseRecOn with
  | nil => rfl
  | append_singleton h x ih =>
    rw [List.foldl_append, docDue, List.reverse_append, ih]
    show x.await (docDue h) =
      ((x :: h.reverse).takeWhile fun x => !x.isEntry).findSome? Happening.doc?
    cases hentry : x.isEntry with
    | true =>
      rw [x.await_of_isEntry hentry, List.takeWhile_cons_of_neg (by simp [hentry])]
      rfl
    | false =>
      rw [x.await_of_not_isEntry hentry, List.takeWhile_cons_of_pos (by simp [hentry]),
        List.findSome?_cons]
      cases x.doc? <;> rfl

/-- Steps that add no declaration leave what waits. -/
theorem foldl_await_edits {es : List Builder.Edit} (hes : ∀ e ∈ es, e.entry? = none)
    (pending : Option Doc) : (es.map Happening.edits).foldl Happening.await pending = pending := by
  induction es with
  | nil => rfl
  | cons e es ih =>
    have hentry : (Happening.edits e).isEntry = false := by
      have hnone := hes e List.mem_cons_self
      cases e with
      | entry e => cases hnone
      | _ => rfl
    rw [List.map_cons, List.foldl_cons, Happening.await_of_not_isEntry hentry]
    exact ih fun e' he' => hes e' (List.mem_cons_of_mem _ he')

end History

/-! ## What happens in a round -/

/-- The task note that a piece of trivia is, if it is one. -/
def TaskNote.ofTrivia? (tags : List String) (file : String) (subject : Option String) (t : Trivia) :
    Option TaskNote :=
  match t.kind with
  | .lineComment =>
    (ofComment? tags t.text).map fun (tag, text) => ⟨tag, text, file, t.line, subject⟩
  | _ => none

/-- The steps that harvest some trivia. -/
def Builder.noteEdits (tags : List String) (file : String) (trivia : List Trivia)
    (subject : Option String) : List Builder.Edit :=
  (trivia.filterMap (TaskNote.ofTrivia? tags file subject)).map .note

/-- To harvest trivia opens and closes no namespace. -/
theorem Builder.foldl_walk_noteEdits (tags : List String) (file : String) (trivia : List Trivia)
    (subject : Option String) (path : List NamespaceKey) :
    (noteEdits tags file trivia subject).foldl Edit.walk path = path := by
  rw [noteEdits, List.foldl_map]
  exact List.foldl_fixed' (fun _ => rfl) _

/-- The steps that a namespace opening or closing takes where it starts at the token of `first`. -/
def Builder.namespaceEdits (first : Scanner) : List Builder.Edit :=
  match Grammar.namespaceHead first with
  | .ok (some head) _ => head.keys.map .enter
  | .ok none _ => if first.token.kind = .rbrace then [.leave] else []
  | .error _ _ => []

namespace OpenFile

/-- How far a file is read. -/
def place (f : OpenFile) : ReadPoint :=
  ⟨f.name, f.source, f.scanner.position⟩

/-- What happens as the declaration at the token of `first` is read. -/
def reading (f : OpenFile) (s : Session) (first : Scanner) : History :=
  match recognize ⟨first, s.builder⟩ with
  | .error _ _ => (Builder.namespaceEdits first).map .edits
  | .ok declaration desk =>
    let inner := desk.scanner.triviaSince first.triviaCount
    (Builder.namespaceEdits first).map .edits ++
      (declaration.map fun d => .edits (.entry ⟨d, first.token.line, s.pendingDoc⟩)).toList ++
      (Builder.noteEdits s.options.tags f.name inner (declaration.map Declaration.label)).map
        .edits ++
      [.ends first.token desk.scanner.token declaration]

/-- What happens in a file as its next declaration is read with what stands before it, or as the
file is left. -/
def happenings (f : OpenFile) (s : Session) : History :=
  let first := f.scanner.next
  let leading := first.triviaSince f.scanner.triviaCount
  let notes := (Builder.noteEdits s.options.tags f.name leading none).map .edits
  if first.token.kind = .eof then
    notes ++ [.leaves]
  else
    notes ++ .starts f.place first.token ::
      match (s.harvest f.name leading none).takeDoc f.name first.token.line leading with
      | (.error _, _) => []
      | (.ok (), s) => f.reading s first

end OpenFile

/-- What happens as a request is answered. -/
def Request.happenings (q : Request) (found : Finding) : History :=
  match found.content with
  | .error _ => [.stops]
  | .ok text => [.opens (q.openFile text).name text]

/-- What happens after a stage. -/
def Stage.happenings (loader : Loader) : Stage → History
  | .over (.failed _ _) => [.stops]
  | .over _ => []
  | .wanting q _ => q.happenings (loader.load q.location)

/-- What happens in a round. -/
def Run.happenings (loader : Loader) (r : Run) : History :=
  let own := match r.files with
    | [] => []
    | f :: _ => if r.session.isCancelled then [] else f.happenings r.session
  own ++ (r.advance loader.resolve).happenings loader

namespace Course

/-- What happens with an act. -/
def happenings (c : Course) : Act → History
  | .cancel => []
  | .source _ name text => if c.run.files.isEmpty then [.opens name text] else []
  | .file loader path =>
    if c.run.files.isEmpty then
      match c.run.session.request loader.resolve path none with
      | .error _ => []
      | .ok q => q.happenings (loader.load q.location)
    else []
  | .round loader => c.run.happenings loader

/-- All that happens with some acts. -/
def history (c : Course) : List Act → History
  | [] => []
  | a :: acts => c.happenings a ++ (c.act a).history acts

end Course

/-! ## What a session becomes -/

/-- A session `s` becomes `s'` by what happens: it can be told what the tree is, what documentation
waits, which warnings are recorded, and which documentation each declaration has. -/
structure Session.Becomes (s s' : Session) (h : History) : Prop where
  builder_eq : s'.builder = s.builder.after h.edits
  pendingDoc_eq : s'.pendingDoc = h.foldl Happening.await s.pendingDoc
  warnings_eq : s'.warnings.toList = s.warnings.toList ++ h.filterMap Happening.warning?
  options_eq : s'.options = s.options
  documented : EachAfter (fun before x => ∀ e, x = .edits (.entry e) →
    e.doc = before.foldl Happening.await s.pendingDoc) h

namespace Session.Becomes

variable {s s' s'' : Session} {h h' : History}

theorem trans (hs : s.Becomes s' h) (hs' : s'.Becomes s'' h') : s.Becomes s'' (h ++ h') where
  builder_eq := by
    rw [hs'.builder_eq, hs.builder_eq, History.edits_append, Builder.after, Builder.after,
      Builder.after, List.foldl_append]
  pendingDoc_eq := by rw [hs'.pendingDoc_eq, hs.pendingDoc_eq, List.foldl_append]
  warnings_eq := by
    rw [hs'.warnings_eq, hs.warnings_eq, List.filterMap_append, List.append_assoc]
  options_eq := hs'.options_eq.trans hs.options_eq
  documented := by
    refine hs.documented.append fun before x later hx e he => ?_
    rw [List.foldl_append, ← hs.pendingDoc_eq]
    exact hs'.documented before x later hx e he

theorem refl (s : Session) : s.Becomes s [] :=
  ⟨rfl, rfl, (List.append_nil _).symm, rfl, eachAfter_nil⟩

/-- A session becomes another one that holds the same. -/
theorem of_eq (hbuilder : s'.builder = s.builder) (hpending : s'.pendingDoc = s.pendingDoc)
    (hwarnings : s'.warnings = s.warnings) (hoptions : s'.options = s.options) :
    s.Becomes s' [] :=
  ⟨hbuilder, hpending, by rw [hwarnings]; exact (List.append_nil _).symm, hoptions, eachAfter_nil⟩

/-- Steps that add no declaration only change the tree. -/
theorem of_edits {es : List Builder.Edit} (hes : ∀ e ∈ es, e.entry? = none) :
    s.Becomes { s with builder := s.builder.after es } (es.map .edits) := by
  refine ⟨by rw [History.edits_map], (History.foldl_await_edits hes _).symm, ?_, rfl, ?_⟩
  · have hnone : (es.map Happening.edits).filterMap Happening.warning? = [] := by
      rw [List.filterMap_map, List.filterMap_eq_nil_iff]
      exact fun _ _ => rfl
    rw [hnone, List.append_nil]
  · intro before x later hx e he
    subst he
    have hmem : Happening.edits (.entry e) ∈ es.map Happening.edits := by
      rw [hx]
      exact List.mem_append_right _ List.mem_cons_self
    obtain ⟨e', he', heq⟩ := List.mem_map.1 hmem
    cases heq
    cases hes _ he'

/-- To record a file changes nothing that is told. -/
theorem visit (s : Session) (key : String) : s.Becomes (s.visit key) [] := by
  unfold Session.visit
  split
  · exact .refl s
  · exact .of_eq rfl rfl rfl rfl

/-- What happens otherwise leaves the session alone. -/
theorem of_idle {x : Happening} (hedit : x.edit? = none) (hdoc : x.doc? = none)
    (hwarning : x.warning? = none) (s : Session) : s.Becomes s [x] := by
  have hentry : x.isEntry = false := by
    cases x with
    | edits => cases hedit
    | _ => rfl
  have hawait : x.await s.pendingDoc = s.pendingDoc := by
    rw [Happening.await_of_not_isEntry hentry, hdoc]
    rfl
  refine ⟨?_, hawait.symm, ?_, rfl, .cons ?_ eachAfter_nil⟩
  · rw [History.edits, List.filterMap_cons_none hedit]
    rfl
  · rw [List.filterMap_cons_none hwarning]
    exact (List.append_nil _).symm
  · rintro e rfl
    cases hedit

end Session.Becomes

/-! ## The parts of a round -/

/-- Where no namespace is opened, no token is read. -/
theorem Grammar.eq_of_namespaceHead_none {s t : Scanner} (h : namespaceHead s = .ok none t) :
    s = t := by
  have hsome : ∀ (p : Reading NamespaceHead) (s : Scanner), (some <$> p) s ≠ .ok none t := by
    intro p s h
    obtain ⟨a, u, -, h⟩ := Reading.bind_eq_ok.1 h
    cases h
  rw [namespaceHead_eq] at h
  split at h
  · obtain ⟨token, u, -, h⟩ := Reading.bind_eq_ok.1 h
    exact absurd h (hsome _ u)
  split at h
  · exact absurd h (hsome _ s)
  · cases h
    rfl

theorem builder_recognizeAmong {forms : List Form}
    (h : ∀ form ∈ forms, form ≠ .namespaceOpen ∧ form ≠ .namespaceClose) (d : Desk) :
    (Desk.after (recognizeAmong forms d)).builder = d.builder := by
  induction forms generalizing d with
  | nil => rfl
  | cons form forms ih =>
    have hform := h form List.mem_cons_self
    have hbuilder := form.builder_attempt hform.1 hform.2 d
    unfold recognizeAmong
    rcases hattempt : form.attempt d with ⟨_ | declaration, d'⟩ | ⟨fault, d'⟩
    · rw [hattempt] at hbuilder
      exact (ih (fun f hf => h f (List.mem_cons_of_mem _ hf)) d').trans hbuilder
    · rw [hattempt] at hbuilder
      exact hbuilder
    · rw [hattempt] at hbuilder
      exact hbuilder

theorem Builder.after_map_enter (b : Builder) (keys : List NamespaceKey) :
    b.after (keys.map .enter) = keys.foldl enter b := by
  rw [Builder.after, List.foldl_map]
  rfl

/-- To open and close namespaces adds nothing to them. -/
theorem Builder.adds_nothing_of_mem_namespaceEdits {first : Scanner} {e : Builder.Edit}
    (he : e ∈ namespaceEdits first) : e.entry? = none ∧ e.note? = none := by
  unfold namespaceEdits at he
  split at he
  · obtain ⟨key, -, rfl⟩ := List.mem_map.1 he
    exact ⟨rfl, rfl⟩
  · split at he
    · rw [List.mem_singleton.1 he]
      exact ⟨rfl, rfl⟩
    · cases he
  · cases he

/-- **A declaration changes the tree** only where it opens or closes a namespace. -/
theorem builder_recognize (first : Scanner) (b : Builder) :
    (Desk.after (recognize ⟨first, b⟩)).builder = b.after (Builder.namespaceEdits first) := by
  have hothers : ∀ form ∈ Form.all.drop 2, form ≠ .namespaceOpen ∧ form ≠ .namespaceClose := by
    decide
  have hopen : Form.attempt .namespaceOpen ⟨first, b⟩ = Form.openNamespaces ⟨first, b⟩ := rfl
  -- the forms that open and close a namespace are tried first
  unfold recognize Form.all recognizeAmong Builder.namespaceEdits
  rw [hopen, Form.openNamespaces]
  rcases hhead : Grammar.namespaceHead first with ⟨_ | ⟨keys, _ | fault⟩, t⟩ | ⟨fault, t⟩
  · obtain rfl := Grammar.eq_of_namespaceHead_none hhead
    dsimp only
    unfold recognizeAmong
    have hclose : Form.attempt .namespaceClose ⟨first, b⟩ = Form.closeNamespace ⟨first, b⟩ := rfl
    rw [hclose, Form.closeNamespace]
    dsimp only
    by_cases hbrace : first.token.kind = .rbrace
    · rw [if_pos hbrace, if_pos hbrace]
      show _ = b.edit .leave
      unfold Builder.edit Builder.edit?
      cases b.leave? <;> rfl
    · rw [if_neg hbrace, if_neg hbrace]
      exact builder_recognizeAmong hothers _
  · exact (Builder.after_map_enter b keys).symm
  · exact (Builder.after_map_enter b keys).symm
  · rfl

namespace Session

theorem builder_takeDoc (s : Session) (file : String) (line : Nat) (leading : List Trivia) :
    (s.takeDoc file line leading).2.builder = s.builder := by
  obtain ⟨_, _, h⟩ := s.exists_takeDoc_eq file line leading
  rw [h]

theorem pendingDoc_takeDoc (s : Session) (file : String) (line : Nat) (leading : List Trivia) :
    (s.takeDoc file line leading).2.pendingDoc = ((docComments leading).getLast?.bind fun last =>
      (Doc.ofComment last.text last.span).toOption).or s.pendingDoc := by
  unfold takeDoc
  dsimp only
  cases (docComments leading).getLast? with
  | none => rfl
  | some last =>
    dsimp only [Option.bind_some]
    cases Doc.ofComment last.text last.span with
    | ok doc => rfl
    | error fault =>
      dsimp only
      split <;> rfl

theorem warnings_takeDoc (s : Session) (file : String) (line : Nat) (leading : List Trivia) :
    (s.takeDoc file line leading).2.warnings.toList = s.warnings.toList ++
      (if (docComments leading).length > 1 then (docComments leading).getLast?.map fun last =>
        Warning.severalComments file line last.span else none).toList := by
  unfold takeDoc
  dsimp only
  cases (docComments leading).getLast? with
  | none =>
    rw [Option.map_none, ite_self]
    exact (List.append_nil _).symm
  | some last =>
    dsimp only [Option.map_some]
    by_cases hseveral : (docComments leading).length > 1
    · rw [if_pos hseveral, if_pos hseveral]
      cases Doc.ofComment last.text last.span <;> exact Array.toList_push
    · rw [if_neg hseveral, if_neg hseveral]
      cases Doc.ofComment last.text last.span <;> exact (List.append_nil _).symm

/-- A piece of trivia is harvested by adding the note that it is. -/
theorem harvestComment_eq (file : String) (subject : Option String) (s : Session) (t : Trivia) :
    harvestComment file subject s t = { s with
      builder := s.builder.after
        ((TaskNote.ofTrivia? s.options.tags file subject t).toList.map .note) } := by
  unfold harvestComment TaskNote.ofTrivia?
  cases t.kind with
  | lineComment => cases TaskNote.ofComment? s.options.tags t.text <;> rfl
  | _ => rfl

/-- Trivia is harvested by adding its notes, in order. -/
theorem harvest_eq (s : Session) (file : String) (trivia : List Trivia) (subject : Option String) :
    s.harvest file trivia subject = { s with
      builder := s.builder.after (Builder.noteEdits s.options.tags file trivia subject) } := by
  unfold Session.harvest Builder.noteEdits
  induction trivia generalizing s with
  | nil => rfl
  | cons t trivia ih =>
    rw [List.foldl_cons, ih, harvestComment_eq]
    cases hnote : TaskNote.ofTrivia? s.options.tags file subject t with
    | none => rw [List.filterMap_cons_none hnote]; rfl
    | some note => rw [List.filterMap_cons_some hnote]; rfl

end Session

namespace Session.Becomes

variable {s s' : Session}

open History

/-- Trivia is harvested by its steps. -/
theorem harvest (s : Session) (file : String) (trivia : List Trivia) (subject : Option String) :
    s.Becomes (s.harvest file trivia subject)
      ((Builder.noteEdits s.options.tags file trivia subject).map .edits) := by
  rw [harvest_eq]
  refine of_edits fun e he => ?_
  obtain ⟨note, -, rfl⟩ := List.mem_map.1 he
  rfl

/-- A declaration starts. -/
theorem of_start {place : ReadPoint} {first : Token} (hbuilder : s'.builder = s.builder)
    (hoptions : s'.options = s.options)
    (hpending : s'.pendingDoc = (Happening.starts place first).doc?.or s.pendingDoc)
    (hwarnings : s'.warnings.toList =
      s.warnings.toList ++ (Happening.starts place first).warning?.toList) :
    s.Becomes s' [.starts place first] := by
  refine ⟨hbuilder, hpending, ?_, hoptions, .cons ?_ eachAfter_nil⟩
  · rw [hwarnings]
    cases hwarning : (Happening.starts place first).warning? with
    | none => rw [List.filterMap_cons_none hwarning]; rfl
    | some warning => rw [List.filterMap_cons_some hwarning]; rfl
  · intro e he
    cases he

/-- The documentation before a declaration is taken where the declaration starts. -/
theorem takeDoc (s : Session) {place : ReadPoint} {first : Token} {leading : List Trivia}
    (hleading : docComments leading = Happening.leadingDocs place first) :
    s.Becomes (s.takeDoc place.file first.line leading).2 [.starts place first] := by
  refine of_start (builder_takeDoc _ _ _ _) (options_takeDoc _ _ _ _) ?_ ?_
  · rw [pendingDoc_takeDoc, hleading]
    rfl
  · rw [warnings_takeDoc, hleading]
    rfl

/-- A declaration is added with the documentation that waits. -/
theorem addDeclaration (s : Session) (d : Declaration) (line : Nat) :
    s.Becomes (s.addDeclaration d line) ([.entry ⟨d, line, s.pendingDoc⟩].map .edits) := by
  refine ⟨rfl, rfl, (List.append_nil _).symm, rfl, .cons ?_ eachAfter_nil⟩
  rintro e ⟨⟩
  rfl

end Session.Becomes

theorem Session.docComments_filter (ts : List Trivia) :
    docComments (ts.filter (·.kind.isComment)) = docComments ts := by
  unfold docComments
  rw [List.filter_filter]
  refine List.filter_congr fun t _ => ?_
  cases t.kind <;> simp [TriviaKind.isComment]

end AcsOutline
