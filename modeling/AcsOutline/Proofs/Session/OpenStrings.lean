import AcsOutline.Proofs.Grammar.OpenStringForms
import AcsOutline.Proofs.Session.Harvest

/-!
# Sources that end with a cut-off string

A source whose last string is never closed is read without a failure only where a define takes that
string into its value (`Session.openStrings_readSource`).  While a run goes on, the string of a file
is still to be read, or it has been taken so (`Run.openStrings_history`): a file is not left before
its end, and no other declaration is read over the string.
-/

namespace AcsOutline

namespace History

variable {tags : List String} {file : String} {s t : Scanner} {place : ReadPoint}
  {declaration : Option Declaration} {moves : List Builder.Edit}

/-- A declaration of a source is a define that ends with a string. -/
def Defines (h : History) (source : String) (u : Token) : Prop :=
  ∃ place first last x, place.source = source ∧ .starts place first ∈ h ∧
    .ends first last (some x) ∈ h ∧ x.EndsWith u

theorem Defines.mono {h h' : History} {source : String} {u : Token} (hd : h.Defines source u)
    (hsub : h ⊆ h') : h'.Defines source u := by
  obtain ⟨place, first, last, x, hplace, hstarts, hends, hx⟩ := hd
  exact ⟨place, first, last, x, hplace, hsub hstarts, hsub hends, hx⟩

theorem starts_mem_declared : .starts place s.next.token ∈
    declared tags file s t place declaration moves [] :=
  List.mem_append_right _ List.mem_cons_self

theorem ends_mem_declared : .ends s.next.token t.token declaration ∈
    declared tags file s t place declaration moves [] :=
  List.mem_append_right _ <| List.mem_cons_of_mem _ <| List.mem_append_right _ <|
    List.mem_append_right _ (List.mem_singleton_self _)

/-- No file is opened as a declaration is read. -/
theorem isOpening_of_mem_declared {x : Happening}
    (hx : x ∈ declared tags file s t place declaration moves []) : x.isOpening = false := by
  have hedits : ∀ {es : List Builder.Edit}, x ∈ es.map Happening.edits → x.isOpening = false := by
    intro es hmem
    obtain ⟨e, -, rfl⟩ := List.mem_map.1 hmem
    rfl
  rcases List.mem_append.1 hx with hx | hx
  · exact hedits hx
  rcases List.mem_cons.1 hx with rfl | hx
  · rfl
  rcases List.mem_append.1 hx with hx | hx
  · exact hedits hx
  rcases List.mem_append.1 hx with hx | hx
  · exact hedits hx
  · rw [List.mem_singleton.1 hx]
    rfl

end History

namespace Run

variable {files : SourceFiles} {r r' : Run} {f : OpenFile} {outer : List OpenFile} {u : Token}

/-- A round that leaves a file opens none. -/
theorem leaves_of_step (hfiles : r.files = f :: outer) (hstep : r.step files = .reading r')
    (heof : f.scanner.next.token.kind = .eof) :
    r'.files = outer ∧ ∀ x ∈ r.happenings (.ofFiles files), x.isOpening = false := by
  have hround := readFile_of_step hfiles hstep
  rw [readFile_of_eof heof] at hround
  obtain ⟨hreading, hhappenings⟩ := hround.resolve_right fun ⟨_, _, _, h, _⟩ => nomatch h
  constructor
  · cases hreading
    rfl
  · intro x hx
    rw [hhappenings, OpenFile.happenings, if_pos heof] at hx
    rcases List.mem_append.1 hx with hx | hx
    · obtain ⟨e, -, rfl⟩ := List.mem_map.1 hx
      rfl
    · rw [List.mem_singleton.1 hx]
      rfl

/-- Any other round reads a declaration.  Its file stays open, and so do the outer ones; and a file
that is opened is to be read from its start. -/
theorem reads_of_step (hfiles : r.files = f :: outer) (hstep : r.step files = .reading r')
    (hne : f.scanner.next.token.kind ≠ .eof) :
    ∃ (t : Scanner) (declaration : Option Declaration) (moves : List Builder.Edit),
      (∃ b b', recognize ⟨f.scanner.next, b⟩ = .ok declaration ⟨t, b'⟩) ∧
      { f with scanner := t } :: outer ⊆ r'.files ∧
      History.declared r.session.options.tags f.name f.scanner t f.place declaration moves [] ⊆
        r.happenings (.ofFiles files) ∧
      ∀ name text, .opens name text ∈ r.happenings (.ofFiles files) →
        ∃ g ∈ r'.files, g.source = text ∧ g.scanner = .ofString text := by
  have hround := readFile_of_step hfiles hstep
  have hok : ∀ failure s,
      readFile files.resolve r.session f outer ≠ .over (.failed failure s) := by
    intro failure s h
    rw [h] at hround
    rcases hround with ⟨h, -⟩ | ⟨_, _, _, h, -⟩ <;> cases h
  obtain ⟨t, declaration, moves, hread, -, hgoes, hown⟩ :=
    happenings_of_reads files.resolve r.session outer hne hok
  have hnone : ∀ name text, Happening.opens name text ∉ f.happenings r.session := by
    intro name text hopens
    rw [hown] at hopens
    cases History.isOpening_of_mem_declared hopens
  refine ⟨t, declaration, moves, hread, ?_⟩
  rw [← hown]
  rcases hround with ⟨hstage, hhappenings⟩ | ⟨q, r₁, text, hstage, hfiles', hhappenings⟩
  · -- nothing is included
    rw [hstage] at hgoes
    rw [hhappenings, hgoes _ rfl]
    exact ⟨fun _ h => h, fun _ h => h, fun name text h => absurd h (hnone name text)⟩
  · -- the file that is included is the only one that is opened
    rw [hstage] at hgoes
    rw [hhappenings, hfiles', hgoes _ rfl]
    refine ⟨List.subset_cons_self _ _, List.subset_append_left _ _, fun name text h => ?_⟩
    rcases List.mem_append.1 h with h | h
    · exact absurd h (hnone name text)
    · cases List.mem_singleton.1 h
      exact ⟨_, List.mem_cons_self, rfl, rfl⟩

/-- In one of the open files with a given source, a string is still to be read. -/
def Owes (r : Run) (source : String) (u : Token) : Prop :=
  ∃ f ∈ r.files, f.source = source ∧ f.scanner.Precedes u

/-- The string of a source is among the tokens that a scanner reads from its start. -/
theorem precedes_ofString {source : String} (h : u ∈ Scanner.tokensOf source) :
    (Scanner.ofString source).Precedes u :=
  (List.dropLast_sublist _).subset h

variable (hu : u.isUnclosedString = true)

include hu

/-- **One declaration.**  A string that it does not leave to be read is taken by a define. -/
theorem owes_or_defines {t : Scanner} {declaration : Option Declaration} {b b' : Builder}
    {tags : List String} {moves : List Builder.Edit} (hf : f.scanner.Precedes u)
    (hread : recognize ⟨f.scanner.next, b⟩ = .ok declaration ⟨t, b'⟩) :
    t.Precedes u ∨ (History.declared tags f.name f.scanner t f.place declaration moves []).Defines
      f.source u := by
  have hsettles := settles_recognize hu (d := ⟨f.scanner.next, b⟩) (hf.next hu)
  rw [hread] at hsettles
  refine hsettles.imp_right ?_
  rintro ⟨x, rfl, hx⟩
  exact ⟨f.place, f.scanner.next.token, t.token, x, rfl, History.starts_mem_declared,
    History.ends_mem_declared, hx⟩

/-- **One round.**  What is owed before is still owed, or a define has taken it; and what a file
that is opened holds is owed from then on. -/
theorem openStrings_step (hstep : r.step files = .reading r') :
    (∀ source, r.Owes source u → r'.Owes source u ∨
      (r.happenings (.ofFiles files)).Defines source u) ∧
    (∀ name text, .opens name text ∈ r.happenings (.ofFiles files) → u ∈ Scanner.tokensOf text →
      r'.Owes text u) := by
  cases hfiles : r.files with
  | nil =>
    rw [step_of_files_nil files hfiles] at hstep
    cases hstep
  | cons f outer =>
    by_cases heof : f.scanner.next.token.kind = .eof
    · -- the file at hand owes nothing
      obtain ⟨hfiles', hnone⟩ := leaves_of_step hfiles hstep heof
      constructor
      · rintro source ⟨g, hg, hsource, hprecedes⟩
        rw [hfiles] at hg
        rcases List.mem_cons.1 hg with rfl | hg
        · exact absurd heof (hprecedes.next_ne_eof hu)
        · exact Or.inl ⟨g, by rwa [hfiles'], hsource, hprecedes⟩
      · intro name text hopens
        cases hnone _ hopens
    · obtain ⟨t, declaration, moves, ⟨b, b', hread⟩, hopen, hhappen, hopens⟩ :=
        reads_of_step hfiles hstep heof
      constructor
      · rintro source ⟨g, hg, rfl, hprecedes⟩
        rw [hfiles] at hg
        rcases List.mem_cons.1 hg with rfl | hg
        · rcases owes_or_defines hu hprecedes hread with ht | hdefines
          · exact Or.inl ⟨_, hopen List.mem_cons_self, rfl, ht⟩
          · exact Or.inr (hdefines.mono hhappen)
        · exact Or.inl ⟨g, hopen (List.mem_cons_of_mem _ hg), rfl, hprecedes⟩
      · intro name text h htext
        obtain ⟨g, hg, hsource, hscanner⟩ := hopens name text h
        exact ⟨g, hg, hsource, hscanner ▸ precedes_ofString htext⟩

/-- **A whole run.**  Without a failure, defines take all that is owed at first, and all that the
files hold that are opened. -/
theorem openStrings_history (hok : (r.complete files).1 = none) :
    (∀ source, r.Owes source u → (r.history files).Defines source u) ∧
    (∀ name text, .opens name text ∈ r.history files → u ∈ Scanner.tokensOf text →
      (r.history files).Defines text u) := by
  induction r using Run.complete.induct files with
  | case1 r s hstep =>
    have hfiles : r.files = [] := by
      cases hfiles : r.files with
      | nil => rfl
      | cons f outer => exact absurd hstep (step_ne_finished hfiles s)
    rw [history_of_files_nil hfiles]
    constructor
    · rintro source ⟨g, hg, -⟩
      rw [hfiles] at hg
      cases hg
    · exact fun _ _ h => absurd h List.not_mem_nil
  | case2 r failure s hstep =>
    rw [complete_eq, hstep] at hok
    cases hok
  | case3 r r' hstep ih =>
    rw [complete_eq, hstep] at hok
    obtain ⟨howed, hopened⟩ := ih hok
    obtain ⟨hstepOwed, hstepOpened⟩ := openStrings_step hu hstep
    rw [history_eq, hstep]
    have hlater : r'.history files ⊆ r.happenings (.ofFiles files) ++ r'.history files :=
      List.subset_append_right _ _
    constructor
    · intro source hsource
      rcases hstepOwed source hsource with hsource | hdefines
      · exact (howed source hsource).mono hlater
      · exact hdefines.mono (List.subset_append_left _ _)
    · intro name text h htext
      rcases List.mem_append.1 h with h | h
      · exact (howed text (hstepOpened name text h htext)).mono hlater
      · exact (hopened name text h htext).mono hlater

end Run

namespace Session

/-- **Cut-off strings.**  Let `u` be a string that the end of input cuts off.  If a source is read
without a failure, and `u` is a token of that source or of a file that it includes, then a define of
that file ends with `u`.  And wherever in a source that ends with `u` a declaration is read, it is
read before `u`, or it is a define that ends with `u`; or it fails: before `u`, at `u` because of
it, where the input ends after `u` was taken for a value, or in a body that `u` leaves open. -/
theorem openStrings_readSource (s : Session) (files : SourceFiles) (name source : String)
    {u : Token} (hu : u.isUnclosedString = true) :
    ((s.readSource files name source).1 = none →
      ∀ file text, .opens file text ∈ s.sourceHistory files name source →
        u ∈ Scanner.tokensOf text → (s.sourceHistory files name source).Defines text u) ∧
    ∀ (t : Scanner) (b : Builder), t.Precedes u → Desk.Settles u (recognize ⟨t.next, b⟩) := by
  constructor
  · intro hok file text hopens htext
    obtain ⟨howed, hopened⟩ := Run.openStrings_history hu
      (r := .ofSource s files name source) hok
    have hsub : (Run.ofSource s files name source).history files ⊆
        s.sourceHistory files name source := List.subset_cons_self _ _
    rcases List.mem_cons.1 hopens with hopens | hopens
    · cases hopens
      have hprecedes := Run.precedes_ofString htext
      exact (howed source ⟨_, List.mem_singleton_self _, rfl, hprecedes⟩).mono hsub
    · exact (hopened file text hopens htext).mono hsub
  · intro t b ht
    exact settles_recognize hu (ht.next hu)

/-- A define that ends with a string which is never closed. -/
theorem openStrings_readSource_define :
    (Token.mk .string "abc" (.ofEnds 10 14) 1).isUnclosedString = true ∧
      ((start .standard).readSource (.ofList []) "m.acs" "#define X \"abc").1 = none ∧
      Token.mk .string "abc" (.ofEnds 10 14) 1 ∈ Scanner.tokensOf "#define X \"abc" ∧
      ((start .standard).sourceHistory (.ofList []) "m.acs" "#define X \"abc").Defines
        "#define X \"abc" ⟨.string, "abc", .ofEnds 10 14, 1⟩ := by
  have hopen : (Token.mk .string "abc" (.ofEnds 10 14) 1).isUnclosedString = true := by decide
  have hrounds : (Run.rounds (.ofList []) 2 (.ofSource (start .standard) (.ofList []) "m.acs"
      "#define X \"abc")).map (·.files.length) = some 0 := by
    decide +kernel
  obtain ⟨r, hrounds, hfiles⟩ := Option.map_eq_some_iff.1 hrounds
  have hok : ((start .standard).readSource (.ofList []) "m.acs" "#define X \"abc").1 = none :=
    congrArg Prod.fst (Run.complete_of_rounds hrounds (List.length_eq_zero_iff.1 hfiles)).1
  have hmem : Token.mk .string "abc" (.ofEnds 10 14) 1 ∈ Scanner.tokensOf "#define X \"abc" := by
    decide +kernel
  exact ⟨hopen, hok, hmem,
    (openStrings_readSource _ _ _ _ hopen).1 hok "m.acs" _ List.mem_cons_self hmem⟩

end Session

end AcsOutline
