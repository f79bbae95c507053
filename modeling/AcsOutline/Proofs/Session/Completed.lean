import AcsOutline.Proofs.Grammar.DottedHeads
import AcsOutline.Proofs.Session.Documentation

/-!
# What a call that fails keeps

A failure undoes nothing and adds nothing.  The tree holds, besides what it held before, the
declarations that were read to their end, in order; and the open namespaces are those after the last
of these, unless the declaration that fails is a namespace head with points in it, which has opened
a namespace for each of its names that a point follows (`Course.kept_after`).

`History.completed` is the part of a history up to the declaration that was read last.  One act adds
to a history what is accounted for (`Course.accounts_act`): each declaration that ends has been
added, and nothing behind it touches the tree but task notes, unless the act fails within a
declaration.
-/

namespace AcsOutline

open Builder (Edit)

namespace Happening

/-- Whether a declaration ends. -/
def isEnd : Happening → Bool
  | ends _ _ _ => true
  | _ => false

/-- What a declaration that ends declares, with the line of its first token. -/
def declared? : Happening → Option (Declaration × Nat)
  | ends first _ declaration => declaration.map (·, first.line)
  | _ => none

/-- Whether no declaration ends, and nothing touches the tree but a task note. -/
def isQuiet : Happening → Bool
  | edits (.note _) => true
  | edits _ | ends _ _ _ => false
  | _ => true

end Happening

namespace History

/-- What happens up to the end of the declaration that is read last. -/
def completed (h : History) : History :=
  (h.reverse.dropWhile fun x => !x.isEnd).reverse

/-- What happens behind it. -/
def unfinished (h : History) : History :=
  (h.reverse.takeWhile fun x => !x.isEnd).reverse

theorem completed_append_unfinished (h : History) : h.completed ++ h.unfinished = h := by
  rw [completed, unfinished, ← List.reverse_append, List.takeWhile_append_dropWhile,
    List.reverse_reverse]

variable {h k : History} {x : Happening}

/-- Where no declaration ends, nothing is completed. -/
theorem completed_append (hk : ∀ x ∈ k, x.isEnd = false) : (h ++ k).completed = h.completed := by
  have hpass : ∀ x ∈ k.reverse, (!x.isEnd) = true := by
    intro x hx
    rw [hk x (List.mem_reverse.1 hx)]
    rfl
  rw [completed, completed, List.reverse_append, List.dropWhile_append_of_pos hpass]

/-- What is behind the last end is behind that of one part. -/
theorem mem_unfinished_append (hx : x ∈ (h ++ k).unfinished) :
    x ∈ h.unfinished ∨ x ∈ k.unfinished := by
  rw [unfinished, List.mem_reverse, List.reverse_append, List.takeWhile_append] at hx
  split at hx
  next hall =>
    rcases List.mem_append.1 hx with hx | hx
    · refine .inr (List.mem_reverse.2 ?_)
      rwa [(List.takeWhile_prefix _).eq_of_length hall]
    · exact .inl (List.mem_reverse.2 hx)
  next => exact .inr (List.mem_reverse.2 hx)

theorem unfinished_concat_of_end (hx : x.isEnd = true) : (h ++ [x]).unfinished = [] := by
  rw [unfinished, List.reverse_append, List.reverse_singleton, List.singleton_append,
    List.takeWhile_cons_of_neg (by rw [hx]; decide)]
  rfl

/-- The declarations that are added are those that end, each with the line of its first token. -/
def Declares (h : History) : Prop :=
  (h.edits.filterMap Edit.entry?).map (fun e => (e.declaration, e.line)) =
    h.filterMap Happening.declared?

/-- Nothing behind the last end of a declaration touches the tree but task notes. -/
def Settled (h : History) : Prop :=
  ∀ x ∈ h.unfinished, x.isQuiet = true

theorem Declares.append (hh : h.Declares) (hk : k.Declares) : (h ++ k).Declares := by
  unfold Declares at hh hk ⊢
  rw [edits_append, List.filterMap_append, List.map_append, hh, hk, List.filterMap_append]

theorem Settled.append (hh : h.Settled) (hk : k.Settled) : (h ++ k).Settled :=
  fun x hx => (mem_unfinished_append hx).elim (hh x) (hk x)

theorem settled_of_isQuiet (hh : ∀ x ∈ h, x.isQuiet = true) : h.Settled :=
  fun x hx => hh x (List.takeWhile_subset _ (List.mem_reverse.1 hx) |> List.mem_reverse.1)

/-- Steps that add no declaration are told as they are. -/
theorem declares_of_none (hentry : ∀ e ∈ h.edits, e.entry? = none)
    (hend : ∀ x ∈ h, x.declared? = none) : h.Declares := by
  unfold Declares
  rw [List.filterMap_eq_nil_iff.2 hentry, List.filterMap_eq_nil_iff.2 hend]
  rfl

/-- What is quiet adds no declaration and leaves the open namespaces. -/
theorem quiet_edits (hh : ∀ x ∈ h, x.isQuiet = true) :
    (∀ e ∈ h.edits, e.entry? = none) ∧ ∀ path, h.edits.foldl Edit.walk path = path := by
  have hnote : ∀ e ∈ h.edits, ∃ note, e = .note note := by
    intro e he
    obtain ⟨x, hx, hedit⟩ := List.mem_filterMap.1 he
    have hquiet := hh x hx
    cases x with
    | edits e' =>
      obtain rfl := Option.some.inj hedit
      cases e' with
      | note note => exact ⟨note, rfl⟩
      | _ => cases hquiet
    | _ => cases hedit
  generalize h.edits = es at hnote
  refine ⟨fun e he => ?_, fun path => ?_⟩
  · obtain ⟨note, rfl⟩ := hnote e he
    rfl
  · induction es with
    | nil => rfl
    | cons e es ih =>
      obtain ⟨note, rfl⟩ := hnote e List.mem_cons_self
      exact ih fun e' he' => hnote e' (List.mem_cons_of_mem _ he')

theorem isEnd_of_isQuiet (hh : ∀ x ∈ h, x.isQuiet = true) : ∀ x ∈ h, x.isEnd = false := by
  intro x hx
  have hquiet := hh x hx
  cases x with
  | ends => cases hquiet
  | _ => rfl

theorem declares_of_isQuiet (hh : ∀ x ∈ h, x.isQuiet = true) : h.Declares := by
  refine declares_of_none (quiet_edits hh).1 fun x hx => ?_
  have hend := isEnd_of_isQuiet hh x hx
  cases x with
  | ends => cases hend
  | _ => rfl

theorem isQuiet_nil : ∀ x ∈ ([] : History), x.isQuiet = true :=
  fun _ hx => absurd hx List.not_mem_nil

theorem isQuiet_singleton {x : Happening} (hx : x.isQuiet = true) : ∀ y ∈ [x], y.isQuiet = true :=
  fun _ hy => List.mem_singleton.1 hy ▸ hx

theorem isQuiet_concat (hh : ∀ x ∈ h, x.isQuiet = true) {x : Happening} (hx : x.isQuiet = true) :
    ∀ y ∈ h ++ [x], y.isQuiet = true := fun y hy =>
  (List.mem_append.1 hy).elim (hh y) (isQuiet_singleton hx y)

theorem isQuiet_noteEdits (tags : List String) (file : String) (trivia : List Trivia)
    (subject : Option String) :
    ∀ x ∈ (Builder.noteEdits tags file trivia subject).map Happening.edits, x.isQuiet = true := by
  intro x hx
  obtain ⟨e, he, rfl⟩ := List.mem_map.1 hx
  obtain ⟨note, -, rfl⟩ := List.mem_map.1 he
  rfl

end History

/-! ## How a history ends -/

/-- The namespaces that a failure leaves open in the declaration that starts at the token of
`first?`, if one does. -/
def Failure.keysAt (failure : Failure) (first? : Option Scanner) : List NamespaceKey :=
  match first? with
  | some first => if failure.form = some .namespaceOpen then first.openedKeys else []
  | none => []

/-- Only a namespace head leaves namespaces open. -/
theorem Failure.keysAt_eq_nil {failure : Failure} (h : failure.form ≠ some .namespaceOpen)
    (first? : Option Scanner) : failure.keysAt first? = [] := by
  cases first? with
  | some first => exact if_neg h
  | none => rfl

/-- A history that leaves nothing open, with or without a failure, or that fails within the
declaration at the token of `first?`, where the namespaces of `path` are open before. -/
inductive History.Closes (path : List NamespaceKey) (first? : Option Scanner) (h : History) :
    Option Failure → Prop where
  | settled {failure? : Option Failure} (hsettled : h.Settled)
      (hform : ∀ failure ∈ failure?, failure.form ≠ some .namespaceOpen) :
      Closes path first? h failure?
  | within {failure : Failure} (hend : ∀ x ∈ h, x.isEnd = false)
      (hpath : h.edits.foldl Edit.walk path = path ++ failure.keysAt first?) :
      Closes path first? h (some failure)

namespace History.Closes

variable {path : List NamespaceKey} {first? : Option Scanner} {h k : History}
  {failure? : Option Failure}

/-- What is quiet before changes nothing. -/
theorem quiet_append (hk : ∀ x ∈ k, x.isQuiet = true) (hh : h.Closes path first? failure?) :
    Closes path first? (k ++ h) failure? := by
  cases hh with
  | settled hsettled hform => exact .settled ((settled_of_isQuiet hk).append hsettled) hform
  | within hend hpath =>
    refine .within (fun x hx => ?_) ?_
    · exact (List.mem_append.1 hx).elim (isEnd_of_isQuiet hk x) (hend x)
    · rw [edits_append, List.foldl_append, (quiet_edits hk).2, hpath]

/-- What is quiet behind changes nothing. -/
theorem append_quiet (hh : h.Closes path first? failure?) (hk : ∀ x ∈ k, x.isQuiet = true) :
    Closes path first? (h ++ k) failure? := by
  cases hh with
  | settled hsettled hform => exact .settled (hsettled.append (settled_of_isQuiet hk)) hform
  | within hend hpath =>
    refine .within (fun x hx => ?_) ?_
    · exact (List.mem_append.1 hx).elim (hend x) (isEnd_of_isQuiet hk x)
    · rw [edits_append, List.foldl_append, (quiet_edits hk).2, hpath]

/-- What does not fail leaves nothing open. -/
theorem settled_of_none (hh : h.Closes path first? none) : h.Settled := by
  cases hh with
  | settled hsettled _ => exact hsettled

/-- What is quiet leaves nothing open. -/
theorem of_isQuiet (hk : ∀ x ∈ k, x.isQuiet = true)
    (hform : ∀ failure ∈ failure?, failure.form ≠ some .namespaceOpen) :
    Closes path first? k failure? :=
  .settled (settled_of_isQuiet hk) hform

end History.Closes

/-! ## One round -/

/-- Where nothing fails, no namespace head does. -/
theorem form_none : ∀ failure ∈ (none : Option Failure), failure.form ≠ some .namespaceOpen :=
  fun failure hfailure => absurd hfailure (Option.not_mem_none failure)

/-- A file that cannot be entered is not a namespace head. -/
theorem form_failureOf (path : String) (site : Option IncludeSite) (fault : Fault) :
    (failureOf path site fault).form ≠ some .namespaceOpen := by
  cases site <;> exact nofun

theorem form_request {s : Session} {resolve : String → Location} {path : String}
    {site : Option IncludeSite} {failure : Failure}
    (h : s.request resolve path site = .error failure) :
    ∀ failure' ∈ some failure, failure'.form ≠ some .namespaceOpen := by
  intro failure' hfailure
  obtain rfl := Option.some.inj hfailure
  unfold Session.request at h
  split at h
  · cases h
    exact form_failureOf path site _
  · split at h
    · cases h
      exact form_failureOf path site _
    · cases h

/-- The failure of a stage, if it is one. -/
def Stage.failure? : Stage → Option Failure
  | .over step => step.failure?
  | .wanting _ _ => none

namespace Run

variable {resolve : String → Location} {session : Session} {f : OpenFile} {outer : List OpenFile}

theorem form_follow (path : String) (site : IncludeSite) :
    ∀ failure ∈ (follow resolve path site session f outer).failure?,
      failure.form ≠ some .namespaceOpen := by
  unfold follow
  split
  · exact form_none
  · cases hrequest : session.request resolve (includeTarget f path) (some site) with
    | ok q => exact form_none
    | error failure => exact form_request hrequest

theorem form_declare (declaration : Option Declaration) (first : Scanner) :
    ∀ failure ∈ (declare resolve declaration first session f outer).failure?,
      failure.form ≠ some .namespaceOpen := by
  unfold declare
  dsimp only
  split
  · exact form_none
  · split
    · exact form_follow _ _
    · exact form_none

end Run

namespace OpenFile

open History

variable (resolve : String → Location) (f : OpenFile) (session : Session) (outer : List OpenFile)

/-- **A declaration is added before it ends, or it fails** and leaves the namespaces that its head
has opened. -/
theorem accounts_reading (first : Scanner) :
    (f.reading session first).Declares ∧
      (f.reading session first).Closes session.builder.path (some first)
        (Run.readDeclaration resolve first session f outer).failure? := by
  have hnamespace : ∀ e ∈ Builder.namespaceEdits first, e.entry? = none :=
    fun e he => (Builder.adds_nothing_of_mem_namespaceEdits he).1
  unfold reading Run.readDeclaration
  cases hrecognize : recognize ⟨first, session.builder⟩ with
  | error rejection desk =>
    have hmap : ∀ x ∈ (Builder.namespaceEdits first).map Happening.edits,
        x.isEnd = false ∧ x.declared? = none := by
      intro x hx
      obtain ⟨e, -, rfl⟩ := List.mem_map.1 hx
      exact ⟨rfl, rfl⟩
    refine ⟨declares_of_none ?_ fun x hx => (hmap x hx).2,
      .within (fun x hx => (hmap x hx).1) ?_⟩
    · rw [edits_map]
      exact hnamespace
    · rw [edits_map]
      exact Builder.path_of_rejection hrecognize
  | ok declaration desk =>
    refine ⟨?_, .settled ?_ (Run.form_declare declaration first)⟩
    · have hnotes : ∀ trivia subject, (Builder.noteEdits session.options.tags f.name trivia
          subject).filterMap Edit.entry? = [] := by
        intro trivia subject
        rw [List.filterMap_eq_nil_iff]
        intro e he
        obtain ⟨note, -, rfl⟩ := List.mem_map.1 he
        rfl
      have hquiet : ∀ es : List Edit, (es.map Happening.edits).filterMap Happening.declared? =
          [] := by
        intro es
        rw [List.filterMap_map, List.filterMap_eq_nil_iff]
        exact fun _ _ => rfl
      unfold Declares
      simp only [edits_append, edits_map, List.filterMap_append, hquiet, hnotes,
        List.filterMap_eq_nil_iff.2 hnamespace, List.nil_append]
      cases declaration <;> rfl
    · intro x hx
      rw [unfinished_concat_of_end rfl] at hx
      cases hx

/-- What happens in a file is accounted for. -/
theorem accounts_happenings :
    (f.happenings session).Declares ∧
      (f.happenings session).Closes session.builder.path (some f.scanner.next)
        (Run.readFile resolve session f outer).failure? := by
  have hnotes := isQuiet_noteEdits session.options.tags f.name
    (f.scanner.next.triviaSince f.scanner.triviaCount) none
  unfold happenings Run.readFile
  dsimp only
  by_cases heof : f.scanner.next.token.kind = .eof
  · have hquiet := isQuiet_concat hnotes (x := .leaves) rfl
    rw [if_pos heof, if_pos heof]
    exact ⟨declares_of_isQuiet hquiet, .of_isQuiet hquiet form_none⟩
  · have hstart := isQuiet_concat hnotes (x := .starts f.place f.scanner.next.token) rfl
    rw [if_neg heof, if_neg heof, List.append_cons]
    rcases hdoc : (session.harvest f.name (f.scanner.next.triviaSince f.scanner.triviaCount)
        none).takeDoc f.name f.scanner.next.token.line
        (f.scanner.next.triviaSince f.scanner.triviaCount) with ⟨fault | _, s⟩
    · dsimp only
      rw [List.append_nil]
      refine ⟨declares_of_isQuiet hstart, .of_isQuiet hstart fun failure hfailure => ?_⟩
      obtain rfl := Option.some.inj hfailure
      exact nofun
    · have hpath : s.builder.path = session.builder.path := by
        have hs : s.builder = session.builder.after (Builder.noteEdits session.options.tags f.name
            (f.scanner.next.triviaSince f.scanner.triviaCount) none) := by
          rw [show s = (_, s).2 from rfl, ← hdoc, Session.builder_takeDoc, Session.harvest_eq]
        rw [hs, Builder.path_foldl, Builder.foldl_walk_noteEdits]
      obtain ⟨hdeclares, hcloses⟩ := f.accounts_reading resolve s outer f.scanner.next
      rw [hpath] at hcloses
      exact ⟨(declares_of_isQuiet hstart).append hdeclares, .quiet_append hstart hcloses⟩

end OpenFile

/-- What happens as a request is answered is quiet, and a failure is not that of a namespace
head. -/
theorem Request.isQuiet_happenings (q : Request) (found : Finding) (r : Run) :
    (∀ x ∈ q.happenings found, x.isQuiet = true) ∧
      ∀ failure ∈ (q.answer found r).failure?, failure.form ≠ some .namespaceOpen := by
  unfold happenings answer
  dsimp only
  cases found.content with
  | error fault =>
    refine ⟨History.isQuiet_singleton rfl, fun failure hfailure => ?_⟩
    obtain rfl := Option.some.inj hfailure
    exact form_failureOf _ _ _
  | ok text => exact ⟨History.isQuiet_singleton rfl, form_none⟩

/-- **What happens in a round is accounted for.** -/
theorem Run.accounts_happenings (r : Run) (loader : Loader) :
    (r.happenings loader).Declares ∧ (r.happenings loader).Closes r.session.builder.path
      (r.files.head?.map fun f => f.scanner.next)
      (match r.advance loader.resolve with
        | .over step => step.failure?
        | .wanting q r' => (q.answer (loader.load q.location) r').failure?) := by
  have hstops := History.isQuiet_singleton (x := .stops) rfl
  have hover : ∀ step : Step, ∀ x ∈ (Stage.over step).happenings loader, x.isQuiet = true := by
    intro step
    cases step with
    | failed failure s => exact hstops
    | _ => exact History.isQuiet_nil
  unfold happenings
  cases hfiles : r.files with
  | nil =>
    rw [advance_of_files_nil loader.resolve hfiles]
    exact ⟨History.declares_of_isQuiet History.isQuiet_nil,
      .of_isQuiet History.isQuiet_nil form_none⟩
  | cons f outer =>
    rw [advance_of_files loader.resolve hfiles]
    dsimp only
    by_cases hcancelled : r.session.isCancelled = true
    · rw [if_pos hcancelled, if_pos hcancelled]
      refine ⟨History.declares_of_isQuiet hstops, .of_isQuiet hstops fun failure hfailure => ?_⟩
      obtain rfl := Option.some.inj hfailure
      exact nofun
    · rw [if_neg hcancelled, if_neg hcancelled]
      obtain ⟨hdeclares, hcloses⟩ := f.accounts_happenings loader.resolve r.session outer
      generalize readFile loader.resolve r.session f outer = stage at hcloses ⊢
      rcases stage with step | ⟨q, r'⟩
      · exact ⟨hdeclares.append (History.declares_of_isQuiet (hover step)),
          hcloses.append_quiet (hover step)⟩
      · obtain ⟨hquiet, hform⟩ := q.isQuiet_happenings (loader.load q.location) r'
        exact ⟨hdeclares.append (History.declares_of_isQuiet hquiet),
          .settled (hcloses.settled_of_none.append (History.settled_of_isQuiet hquiet)) hform⟩

namespace Course

variable {c : Course} {a : Act} {failure : Failure}

/-- The place in the innermost file from which a declaration is read next. -/
def first? (c : Course) : Option Scanner :=
  c.run.files.head?.map fun f => f.scanner.next

/-- **What happens with an act is accounted for.** -/
theorem accounts_act (c : Course) (a : Act) :
    (c.happenings a).Declares ∧
      (c.happenings a).Closes c.run.session.builder.path c.first? (c.failure? a) := by
  have hnothing : ∀ failure? : Option Failure,
      (∀ failure ∈ failure?, failure.form ≠ some .namespaceOpen) → History.Declares [] ∧
        History.Closes c.run.session.builder.path c.first? [] failure? := fun _ hform =>
    ⟨History.declares_of_isQuiet History.isQuiet_nil, .of_isQuiet History.isQuiet_nil hform⟩
  cases a with
  | cancel => exact hnothing none form_none
  | source loader name text =>
    unfold happenings failure?
    dsimp only
    split
    · have hquiet := History.isQuiet_singleton (x := .opens name text) rfl
      exact ⟨History.declares_of_isQuiet hquiet, .of_isQuiet hquiet form_none⟩
    · exact hnothing none form_none
  | file loader path =>
    unfold happenings failure?
    dsimp only
    by_cases hempty : c.run.files.isEmpty = true
    · rw [if_pos hempty, if_pos hempty]
      cases hrequest : c.run.session.request loader.resolve path none with
      | error failure => exact hnothing _ (form_request hrequest)
      | ok q =>
        obtain ⟨hquiet, hform⟩ := q.isQuiet_happenings (loader.load q.location) c.run
        exact ⟨History.declares_of_isQuiet hquiet, .of_isQuiet hquiet hform⟩
    · rw [if_neg hempty, if_neg hempty]
      exact hnothing none form_none
  | round loader => exact c.run.accounts_happenings loader

/-! ## A call -/

theorem history_concat (c : Course) (acts : List Act) (a : Act) :
    c.history (acts ++ [a]) = c.history acts ++ (c.after acts).happenings a := by
  induction acts generalizing c with
  | nil => exact List.append_nil _
  | cons b acts ih =>
    rw [List.cons_append, history, history, ih, List.append_assoc]
    rfl

/-- Acts that do not fail leave nothing open. -/
theorem accounts_acts {acts : List Act} (h : c.failures acts = []) :
    (c.history acts).Declares ∧ (c.history acts).Settled := by
  induction acts generalizing c with
  | nil =>
    exact ⟨History.declares_of_isQuiet History.isQuiet_nil,
      History.settled_of_isQuiet History.isQuiet_nil⟩
  | cons a acts ih =>
    obtain ⟨hnone, hlater⟩ := List.append_eq_nil_iff.1 h
    obtain ⟨hdeclares, hcloses⟩ := c.accounts_act a
    rw [Option.toList_eq_nil_iff.1 hnone] at hcloses
    obtain ⟨hdeclares', hsettled⟩ := ih hlater
    exact ⟨hdeclares.append hdeclares', hcloses.settled_of_none.append hsettled⟩

/-- What a session `s` keeps that a failure leaves as `s'`, after a history. -/
structure Keeps (s s' : Session) (h : History) (keys : List NamespaceKey) : Prop where
  /-- Each level holds the declarations that it held, and behind them those that were completed while
  it was the open one, in order. -/
  entries_eq : ∀ path, (s'.tree.level path).entries.toList = (s.tree.level path).entries.toList ++
    Edit.addedFrom Edit.entry? path s.builder.path h.completed.edits
  /-- Those added are what was declared by the declarations that were read to their end, in order. -/
  declared_eq : (h.completed.edits.filterMap Edit.entry?).map (fun e => (e.declaration, e.line)) =
    h.filterMap Happening.declared?
  /-- The namespaces are open that are so after the last of these, and some others. -/
  path_eq : s'.builder.path = h.completed.edits.foldl Edit.walk s.builder.path ++ keys

/-- What is kept, where nothing is added behind what is completed. -/
theorem keeps_of_rest {s s' : Session} {done rest : History} {keys : List NamespaceKey}
    (hbuilder : s'.builder = s.builder.after (done ++ rest).edits)
    (hdone : (done ++ rest).completed = done) (hdeclares : (done ++ rest).Declares)
    (hrest : ∀ e ∈ rest.edits, e.entry? = none)
    (hwalk : ∀ path, path = done.edits.foldl Edit.walk s.builder.path →
      rest.edits.foldl Edit.walk path = path ++ keys) : Keeps s s' (done ++ rest) keys := by
  refine ⟨fun path => ?_, ?_, ?_⟩
  · rw [Session.tree, Session.tree, hbuilder, Builder.entries_after, hdone, History.edits_append,
      Edit.addedFrom_append_of_none path _ _ hrest]
  · rw [hdone, ← hdeclares, History.edits_append, List.filterMap_append,
      List.filterMap_eq_nil_iff.2 hrest, List.append_nil]
  · rw [hbuilder, Builder.path_foldl, hdone, History.edits_append, List.foldl_append,
      hwalk _ rfl]

/-- A history that is accounted for tells what is kept. -/
theorem keeps_of_accounts {s s' : Session} {h k : History} {first? : Option Scanner}
    (hbuilder : s'.builder = s.builder.after (h ++ k).edits)
    (hh : h.Declares ∧ h.Settled) (hk : k.Declares ∧
      k.Closes (h.edits.foldl Edit.walk s.builder.path) first? (some failure)) :
    Keeps s s' (h ++ k) (failure.keysAt first?) := by
  have hdeclares := hh.1.append hk.1
  obtain ⟨hnone, hstays⟩ := History.quiet_edits hh.2
  cases hk.2 with
  | settled hsettled hform =>
    have hall := hh.2.append hsettled
    obtain ⟨hnone', hstays'⟩ := History.quiet_edits hall
    have hsplit := (h ++ k).completed_append_unfinished
    rw [Failure.keysAt_eq_nil (hform failure rfl), ← hsplit]
    rw [← hsplit] at hbuilder hdeclares
    refine keeps_of_rest hbuilder (by rw [hsplit]) hdeclares hnone' fun path _ => ?_
    rw [hstays', List.append_nil]
  | within hend hpath =>
    have hcompleted := History.completed_append (h := h) hend
    have hsplit : h.completed ++ (h.unfinished ++ k) = h ++ k := by
      rw [← List.append_assoc, h.completed_append_unfinished]
    have hentries : ∀ e ∈ k.edits, e.entry? = none := by
      have hdeclared : k.filterMap Happening.declared? = [] := by
        rw [List.filterMap_eq_nil_iff]
        intro x hx
        have hx := hend x hx
        cases x with
        | ends => cases hx
        | _ => rfl
      have hadded := hk.1
      rw [History.Declares, hdeclared, List.map_eq_nil_iff, List.filterMap_eq_nil_iff] at hadded
      exact hadded
    have hopen : h.edits.foldl Edit.walk s.builder.path =
        h.completed.edits.foldl Edit.walk s.builder.path := by
      conv_lhs => rw [← h.completed_append_unfinished]
      rw [History.edits_append, List.foldl_append, hstays]
    rw [← hsplit]
    rw [← hsplit] at hbuilder hdeclares
    refine keeps_of_rest hbuilder (by rw [hsplit, hcompleted]) hdeclares ?_ ?_
    · intro e he
      rw [History.edits_append] at he
      exact (List.mem_append.1 he).elim (hnone e) (hentries e)
    · rintro path rfl
      rw [History.edits_append, List.foldl_append, hstays, ← hopen]
      exact hpath

/-- **What a call that fails keeps.**  If acts of any session do not fail, with whatever loader, and
the next one does, then the session keeps the declarations read to their end and no other, and the
namespaces that are open after them.  So does a call that fails, with the same files throughout,
which is an act and the rounds after it. -/
theorem kept_after (s : Session) (log : List Event) :
    (∀ acts a failure, (idle s log).failures acts = [] →
      ((idle s log).after acts).failure? a = some failure →
      Keeps s ((idle s log).after (acts ++ [a])).run.session ((idle s log).history (acts ++ [a]))
        (failure.keysAt ((idle s log).after acts).first?)) ∧
    ∀ files call failure, (s.perform files call).1 = some failure →
      ∃ acts a n, acts ++ [a] = .ofCall files call :: List.replicate n (.round (.ofFiles files)) ∧
        (idle s log).failures acts = [] ∧ ((idle s log).after acts).failure? a = some failure ∧
        Keeps s (s.perform files call).2 ((idle s log).history (acts ++ [a]))
          (failure.keysAt ((idle s log).after acts).first?) := by
  have hkeeps : ∀ acts a failure, (idle s log).failures acts = [] →
      ((idle s log).after acts).failure? a = some failure →
      Keeps s ((idle s log).after (acts ++ [a])).run.session ((idle s log).history (acts ++ [a]))
        (failure.keysAt ((idle s log).after acts).first?) := by
    intro acts a failure hacts ha
    have hbecomes := becomes_after (c := idle s log) OpenFile.reached_of_nil
    have hbuilder := (hbecomes (acts ++ [a])).session.builder_eq
    have hcloses := ((idle s log).after acts).accounts_act a
    have hpath : ((idle s log).after acts).run.session.builder.path =
        ((idle s log).history acts).edits.foldl Edit.walk s.builder.path := by
      rw [(hbecomes acts).session.builder_eq, Builder.path_foldl]
      rfl
    rw [ha, hpath] at hcloses
    rw [history_concat] at hbuilder ⊢
    exact keeps_of_accounts hbuilder (accounts_acts hacts) hcloses
  refine ⟨hkeeps, fun files call failure hfails => ?_⟩
  obtain ⟨acts, a, n, log', hshape, hacts, ha, hend⟩ := exists_after_perform files s log call
  rw [hfails] at ha
  have hkept := hkeeps acts a failure hacts ha
  rw [hend] at hkept
  exact ⟨acts, a, n, hshape, hacts, ha, hkept⟩

/-- A dotted namespace head that fails behind a declaration: the declaration is kept, and the names
that a point follows are open. -/
theorem kept_after_dotted_head :
    let loader := Loader.ofFiles (.ofList [])
    let c := start .standard
    let acts := [.source loader "m.acs" "int x;\nnamespace a.b.3", .round loader]
    ∃ failure, c.failures acts = [] ∧ (c.after acts).failure? (.round loader) = some failure ∧
      Keeps (.start .standard) (c.after (acts ++ [.round loader])).run.session
        (c.history (acts ++ [.round loader])) (failure.keysAt (c.after acts).first?) ∧
      (c.after (acts ++ [.round loader])).run.session.tree.entries.size = 1 ∧
      (c.after (acts ++ [.round loader])).run.session.builder.path =
        [⟨false, some "a"⟩, ⟨false, some "b"⟩] := by
  intro loader c acts
  have hacts : c.failures acts = [] := by decide +kernel
  have hfails : ((c.after acts).failure? (.round loader)).isSome = true := by decide +kernel
  obtain ⟨failure, hfailure⟩ := Option.isSome_iff_exists.1 hfails
  exact ⟨failure, hacts, hfailure,
    (kept_after (.start .standard) []).1 acts (.round loader) failure hacts hfailure,
    by decide +kernel, by decide +kernel⟩

end Course

end AcsOutline
