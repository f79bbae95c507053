import AcsOutline.Proofs.Session.Behind

/-!
# Reading a source in two parts

Between two declarations a source can be cut: to read the first part and then the second one in
the same session is to read the source (`Session.readSource_in_parts`).  Nothing that a
declaration looks at lies behind its end, and of what is left of the scanner after a declaration
only the place counts.

The second part is read in two ways.  With its lines and offsets counted from the start of the
source (`Session.resume`), it gives exactly what the source gives; with its own lines and offsets,
what it gives has to be moved behind the first part.  What is moved are the declarations, task notes
and warnings that are added while no included file is open, and a failure that is found then
(`ReadsInParts.moved`, `ReadsInParts.failure`).
-/

namespace AcsOutline

/-- A scanner at the start of a text that stands behind another one: lines and offsets are counted
from the start of both. -/
def Scanner.behind (before rest : List Char) : Scanner :=
  { ofList rest with
    source := before ++ rest
    position := Text.byteLength before
    line := Text.countBreaks before + 1 }

/-- The file of a source, read up to the end of its first part. -/
def OpenFile.behind (name before after : String) : OpenFile :=
  ⟨name, before ++ after, Path.parent? name, .behind before.toList after.toList⟩

/-- Goes on with the second part of a source after the first one. -/
def Session.resume (s : Session) (files : SourceFiles) (name before after : String) :
    Option Failure × Session :=
  Run.complete files ⟨s, [.behind name before after]⟩

namespace Shift

/-- The first part of a source. -/
def first (before after : List Char) : Shift :=
  ⟨[], before, after, 0, [], .all, Or.inr ⟨rfl, rfl⟩⟩

/-- The second part of a source. -/
def second (before after : List Char) : Shift :=
  ⟨before, after, [], 0, [], .all, Or.inl rfl⟩

/-- The second part of a source, where the scanner of the source comes from earlier
declarations. -/
def rest (before after : List Char) (braces : Int) (skipped : List Trivia) : Shift :=
  ⟨before, after, [], braces, skipped, .all, Or.inl rfl⟩

end Shift

/-- A file with nothing left to read ends the run. -/
theorem Run.complete_of_rest_nil {files : SourceFiles} {r : Run} {f : OpenFile}
    (hfiles : r.files = [f]) (hcancelled : r.session.isCancelled = false)
    (hrest : f.scanner.rest = []) : r.complete files = (none, r.session) := by
  have hskip : f.scanner.skipTrivia = f.scanner :=
    Scanner.skipTrivia_of_none (by rw [hrest]; rfl)
  have heof : f.scanner.next.token.kind = .eof := by
    rw [Scanner.next, hskip, Scanner.readToken, hrest]
    rfl
  have htrivia : f.scanner.next.triviaSince f.scanner.triviaCount = [] := by
    rw [Scanner.next, hskip]
    show (f.scanner.skipped.take (f.scanner.skipped.length - f.scanner.skipped.length)).reverse = []
    rw [Nat.sub_self]
    rfl
  have hstep : r.step files = .reading ⟨r.session, []⟩ := by
    unfold step
    rw [advance_of_files _ hfiles, hcancelled, if_neg Bool.false_ne_true, readFile_of_eof heof,
      htrivia]
    rfl
  rw [complete_eq, hstep]
  dsimp only
  rw [complete_eq, step_of_files_nil files rfl]

/-! ## The runs of the parts -/

namespace Run

variable {s : Session} {files : SourceFiles} {name : String}

/-- The run of a source beside itself. -/
theorem beside_whole (s : Session) (files : SourceFiles) (name source : String) :
    (ofSource s files name source).Beside name (.whole source.toList 0 [])
      (ofSource s files name source) where
  session := .refl _
  files := Or.inr <| .outermost
    { name_eq := rfl
      directory_eq := rfl
      source_eq := (List.append_nil _).symm
      scanner :=
        { whole_eq := (List.append_nil _).symm
          part_eq := rfl
          rest_eq := (List.append_nil _).symm
          position_eq := rfl
          line_eq := rfl
          braces_eq := rfl
          whole_mask := rfl
          part_mask := rfl
          skipped_eq := rfl
          counted := Scanner.counted_ofList _ }
      place := Or.inr ⟨rfl, rfl⟩ }

/-- The run of a source beside that of its first part. -/
theorem beside_first (s : Session) (files : SourceFiles) (name before after : String) :
    (ofSource s files name (before ++ after)).Beside name (.first before.toList after.toList)
      (ofSource s files name before) where
  session := .refl _
  files := Or.inr <| .outermost
    { name_eq := rfl
      directory_eq := rfl
      source_eq := String.toList_append
      scanner :=
        { whole_eq := String.toList_append
          part_eq := rfl
          rest_eq := String.toList_append
          position_eq := rfl
          line_eq := rfl
          braces_eq := rfl
          whole_mask := rfl
          part_mask := rfl
          skipped_eq := rfl
          counted := Scanner.counted_ofList _ }
      place := Or.inr ⟨rfl, rfl⟩ }

/-- A file of a source between two declarations: it is cut where the scanner stands. -/
structure CutAt (name before after : String) (f : OpenFile) : Prop where
  file_eq : f = { OpenFile.behind name before after with scanner := f.scanner }
  source_eq : f.scanner.source = before.toList ++ after.toList
  rest_eq : f.scanner.rest = after.toList
  position_eq : f.scanner.position = Text.byteLength before.toList
  line_eq : f.scanner.line = Text.countBreaks before.toList + 1
  mask_eq : f.scanner.mask = .all
  /-- The cut does not part a carriage return from its line feed. -/
  whole_break : ¬Text.SplitsBreak before.toList after.toList

/-- After some rounds of the run of a source, its file is cut into what is read and what is
not. -/
theorem cutAt_of_rounds {source : String} {n : Nat} {r : Run} {f : OpenFile}
    (hrounds : rounds files n (ofSource s files name source) = some r) (hfiles : r.files = [f]) :
    ∃ before after, source = before ++ after ∧ CutAt name before after f := by
  obtain ⟨r', hrounds', hbeside⟩ :=
    beside_rounds (beside_whole s files name source) hrounds (Or.inl rfl)
  -- what is read beside itself is counted
  obtain rfl := Option.some.inj (hrounds.symm.trans hrounds')
  obtain ⟨g', hlast, u, -, hf⟩ := outermost_rounds (g := f) hrounds (by rw [hfiles]; rfl)
  cases hlast
  have hscanner : f.scanner.Alongside (.whole source.toList 0 []) f.scanner := by
    rcases hbeside.files with ⟨hnil, -⟩ | hstacked
    · rw [hnil] at hfiles
      cases hfiles
    · rw [hfiles] at hstacked
      cases hstacked with
      | outermost h => exact h.scanner
      | inner _ _ houter => exact absurd rfl houter.ne_nil.1
  obtain ⟨before, hsource, hposition, hline, hsplit⟩ := hscanner.counted
  have hwhole : source = String.ofList before ++ String.ofList f.scanner.rest := by
    have hpart : f.scanner.source = source.toList := hscanner.part_eq
    rw [← String.ofList_append, ← hsource, hpart, String.ofList_toList]
  refine ⟨String.ofList before, String.ofList f.scanner.rest, hwhole, ?_⟩
  exact
    { file_eq := by
        subst hf
        rw [OpenFile.behind, ← hwhole]
        rfl
      source_eq := by rw [String.toList_ofList, String.toList_ofList, hsource]
      rest_eq := String.toList_ofList.symm
      position_eq := by rw [String.toList_ofList, hposition]
      line_eq := by rw [String.toList_ofList, hline]
      mask_eq := hscanner.part_mask
      whole_break := by rwa [String.toList_ofList, String.toList_ofList] }

/-- The rest of the run of a source beside the run that goes on with the second part: of the
scanner after the first part, only its place counts. -/
theorem beside_resume {before after : String} {f : OpenFile} (h : CutAt name before after f)
    (session : Session) :
    Beside name (.whole (before.toList ++ after.toList) f.scanner.braces f.scanner.skipped)
      ⟨session, [f]⟩ ⟨session, [.behind name before after]⟩ where
  session := .refl _
  files := Or.inr <| .outermost
    { name_eq := by rw [h.file_eq]
      directory_eq := by rw [h.file_eq]
      source_eq := by
        rw [h.file_eq]
        exact (List.append_nil _).symm
      scanner :=
        { whole_eq := h.source_eq.trans (List.append_nil _).symm
          part_eq := rfl
          rest_eq := h.rest_eq.trans (List.append_nil _).symm
          position_eq := h.position_eq
          line_eq := h.line_eq
          braces_eq := (Int.zero_add _).symm
          whole_mask := h.mask_eq
          part_mask := rfl
          skipped_eq := rfl
          counted := ⟨before.toList, rfl, rfl, rfl, h.whole_break⟩ }
      place := Or.inr ⟨rfl, rfl⟩ }

/-- The rest of the run of a source beside the run of the second part. -/
theorem beside_rest {before after : String} {f : OpenFile} (h : CutAt name before after f)
    (session : Session) :
    Beside name (.rest before.toList after.toList f.scanner.braces f.scanner.skipped)
      ⟨session, [f]⟩ ⟨session, [.start name after (Path.parent? name)]⟩ where
  session := .refl _
  files := Or.inr <| .outermost
    { name_eq := by rw [h.file_eq]; rfl
      directory_eq := by rw [h.file_eq]; rfl
      source_eq := by
        rw [h.file_eq]
        exact String.toList_append.trans (List.append_nil _).symm
      scanner :=
        { whole_eq := h.source_eq.trans (List.append_nil _).symm
          part_eq := rfl
          rest_eq := h.rest_eq.trans (List.append_nil _).symm
          position_eq := h.position_eq.trans (Nat.zero_add _).symm
          line_eq := h.line_eq.trans (Nat.add_comm _ _)
          braces_eq := (Int.zero_add _).symm
          whole_mask := h.mask_eq
          part_mask := rfl
          skipped_eq := rfl
          counted := Scanner.counted_ofList _ }
      place := Or.inr ⟨rfl, rfl⟩ }

end Run

namespace Session

variable {s : Session} {files : SourceFiles} {name : String}

/-- The same sessions and failures where nothing is moved. -/
theorem eq_of_moved {m : Shift} (hm : m.IsWhole) {p p' : Option Failure × Session}
    (hfailure : Option.Rel (fun f f' => ∃ k, (k = m ∨ k.IsWhole) ∧ f.Moved name m k f') p.1 p'.1)
    (hsession : p.2.Moved name m.move p'.2) : p = p' := by
  obtain ⟨failure, session⟩ := p
  obtain ⟨failure', session'⟩ := p'
  rw [hm.move_eq] at hsession
  obtain rfl := hsession.eq_of_over_nil
  cases hfailure with
  | none => rfl
  | some h =>
    obtain ⟨k, hk, hf⟩ := h
    have hwhole : k.IsWhole := hk.elim (fun heq => heq ▸ hm) id
    rw [hf.eq_move, hwhole.failure_move]

theorem visit_of_mem {key : String} (h : key ∈ s.visited) : s.visit key = s :=
  if_pos (by simpa using h)

/-! ## The source, its first part and its second part -/

section Cut

variable {before after : String} {n : Nat} {r : Run} {f : OpenFile}
  (hrounds : Run.rounds files (n + 1) (.ofSource s files name (before ++ after)) = some r)
  (hfiles : r.files = [f]) (hcut : Run.CutAt name before after f)

include hrounds hfiles hcut

/-- The first part is read without a failure, and leaves the session as it is in the run of the
source. -/
theorem readSource_first : s.readSource files name before = (none, r.session) := by
  have hin : r.Inside (.first before.toList after.toList) :=
    Or.inr ⟨f, by rw [hfiles]; rfl, by rw [hcut.rest_eq]; exact List.suffix_refl _⟩
  obtain ⟨r', hrounds', hbeside⟩ :=
    Run.beside_rounds (Run.beside_first s files name before after) hrounds hin
  obtain ⟨f', hfiles', hf⟩ : ∃ f', r'.files = [f'] ∧
      f.scanner.Alongside (.first before.toList after.toList) f'.scanner := by
    rcases hbeside.files with ⟨hnil, -⟩ | hstacked
    · rw [hnil] at hfiles
      cases hfiles
    · rw [hfiles] at hstacked
      generalize r'.files = fs' at hstacked
      cases hstacked with
      | outermost h => exact ⟨_, rfl, h.scanner⟩
      | inner _ _ houter => exact absurd rfl houter.ne_nil.1
  have hrest : f'.scanner.rest = [] := by
    have happend : f.scanner.rest = f'.scanner.rest ++ after.toList := hf.rest_eq
    rw [hcut.rest_eq] at happend
    exact List.self_eq_append_left.1 happend
  have hsession : r.session = r'.session := hbeside.session.eq_of_over_nil
  have hcancelled := Run.isCancelled_rounds hrounds hfiles
  rw [readSource_eq, Run.complete_rounds hrounds',
    Run.complete_of_rest_nil hfiles' (hsession ▸ hcancelled) hrest, hsession]

omit hrounds in
/-- The rest of the run of the source is the one that goes on with the second part. -/
theorem complete_eq_resume : r.complete files = r.session.resume files name before after := by
  have hbeside := Run.beside_resume hcut r.session
  rw [← hfiles] at hbeside
  obtain ⟨hfailure, hsession⟩ := Run.matches_complete files rfl hbeside
  exact eq_of_moved (Shift.isWhole_whole _ _ _) hfailure hsession

/-- The rest of the run of the source beside the run of the second part, with the session that the
first part leaves. -/
theorem beside_second : r.Beside name
    (.rest before.toList after.toList f.scanner.braces f.scanner.skipped)
    (.ofSource r.session files name after) := by
  have hvisit : r.session.visit (files.resolve name).key = r.session :=
    visit_of_mem (Run.mem_visited_rounds hrounds (mem_visited_visit_self s _))
  have hbeside := Run.beside_rest hcut r.session
  rw [← hfiles] at hbeside
  rw [Run.ofSource, hvisit]
  exact hbeside

/-- A failure of the second part, as a source of its own. -/
theorem failure_second : Option.Rel
    (Failure.Behind name (.second before.toList after.toList)
      (History.places (r.session.sourceHistory files name after).dropLast))
    (r.complete files).1 (r.session.readSource files name after).1 := by
  rw [readSource_eq]
  refine optionRel_imp ?_ (Run.failure_behind rfl (beside_second hrounds hfiles hcut)
    (Run.reached_ofSource r.session files name after))
  rintro failure failure' ⟨past, hpast, hfailure⟩
  rw [sourceHistory, hpast, ← List.cons_append, List.dropLast_concat]
  exact ⟨hfailure.eq_move, hfailure.file_eq⟩

/-- What happens in the rest of the run of the source is what happens as the second part is read. -/
theorem becomes_behind :
    r.session.Becomes (r.complete files).2 ((r.session.sourceHistory files name after).behind
      (.second before.toList after.toList) []) := by
  have hreached := Run.reached_rounds (Run.reached_ofSource s files name (before ++ after)) hrounds
  have hbecomes := Run.becomes_complete files hreached
  -- braces and trivia that the first part leaves behind do not say where things happen
  have hcongr := History.behind_congr
    (m := .rest before.toList after.toList f.scanner.braces f.scanner.skipped)
    (k := .second before.toList after.toList) rfl rfl
  rw [Run.history_behind rfl (beside_second hrounds hfiles hcut)
    (Run.reached_ofSource r.session files name after), hcongr] at hbecomes
  exact (Becomes.of_idle (x := .opens name after) rfl rfl rfl _).trans hbecomes

end Cut

/-- To read a source in two parts is to read it in one: `s` is the session before, and the source
is `before` with `after` behind it. -/
structure ReadsInParts (s : Session) (files : SourceFiles) (name before after : String) : Prop where
  /-- The first part is read without a failure. -/
  first_succeeds : (s.readSource files name before).1 = none
  /-- The second part gives exactly what is missing, where its lines and offsets are counted from
  the start of the source. -/
  resumes : s.readSource files name (before ++ after) =
    (s.readSource files name before).2.resume files name before after
  /-- As a source of its own, the second part has the same failure in the same form, or none.  It is
  moved behind the first part if no included file is open when it is found. -/
  failure : Option.Rel
    (Failure.Behind name (.second before.toList after.toList) (History.places
      ((s.readSource files name before).2.sourceHistory files name after).dropLast))
    (s.readSource files name (before ++ after)).1
    ((s.readSource files name before).2.readSource files name after).1
  /-- What happens as the second part is read tells what it adds to the session. -/
  second : (s.readSource files name before).2.Becomes
    ((s.readSource files name before).2.readSource files name after).2
    ((s.readSource files name before).2.sourceHistory files name after)
  /-- The source adds the same, in the same order: what the second part adds while no included file
  is open is moved behind the first part. -/
  moved : (s.readSource files name before).2.Becomes
    (s.readSource files name (before ++ after)).2
    (((s.readSource files name before).2.sourceHistory files name after).behind
      (.second before.toList after.toList) [])
  /-- The documentation that waits, the warnings and the visited files are the same, but for the
  places that `moved` tells. -/
  session : (s.readSource files name (before ++ after)).2.Moved name (.over before.toList)
    ((s.readSource files name before).2.readSource files name after).2
  /-- The finished trees are the same, but for the lines that `moved` tells. -/
  tree : (s.readSource files name (before ++ after)).2.tree.Moved name (.over before.toList)
    ((s.readSource files name before).2.readSource files name after).2.tree
  /-- The same namespaces are left open. -/
  path : (s.readSource files name (before ++ after)).2.builder.path =
    ((s.readSource files name before).2.readSource files name after).2.builder.path

/-- **A source can be read in two parts.**  Let the run of a source have gone on for at least one
round, and let it be back in the file of the source, so that it stands between two declarations.
Then the source is cut there between two characters, and to read one part after the other in the
same session is to read the source. -/
theorem readSource_in_parts {source : String} {n : Nat} {r : Run} {f : OpenFile}
    (hrounds : Run.rounds files (n + 1) (.ofSource s files name source) = some r)
    (hfiles : r.files = [f]) :
    ∃ before after : String, source = before ++ after ∧
      Text.byteLength before.toList = f.scanner.position ∧
      s.ReadsInParts files name before after := by
  obtain ⟨before, after, rfl, hcut⟩ := Run.cutAt_of_rounds hrounds hfiles
  have hfirst := readSource_first hrounds hfiles hcut
  have hwhole : s.readSource files name (before ++ after) = r.complete files :=
    Run.complete_rounds hrounds
  have hsecond : r.session.readSource files name after =
      (Run.ofSource r.session files name after).complete files := rfl
  have hsession := (Run.matches_complete files rfl (beside_second hrounds hfiles hcut)).2
  rw [← hsecond] at hsession
  refine ⟨before, after, rfl, hcut.position_eq.symm, ?_⟩
  constructor
  all_goals rw [hfirst]
  case resumes => exact hwhole.trans (complete_eq_resume hfiles hcut)
  case failure =>
    rw [hwhole]
    exact failure_second hrounds hfiles hcut
  case second => exact becomes_readSource r.session files name after
  case moved =>
    rw [hwhole]
    exact becomes_behind hrounds hfiles hcut
  case session =>
    rw [hwhole]
    exact hsession
  case tree =>
    rw [hwhole]
    exact hsession.builder.finish
  case path =>
    rw [hwhole]
    exact hsession.builder.path_eq

/-- Cut behind an include, once the included file is read. -/
theorem readSource_in_parts_after_include :
    ∃ r f, Run.rounds (.ofList [("b.acs", .ofText "int z;")]) 3
        (.ofSource (.start .standard) (.ofList [("b.acs", .ofText "int z;")]) "a.acs"
          "#include \"b.acs\" // todo: sort\nint x, y;") = some r ∧
      r.files = [f] ∧ f.scanner.position = 16 ∧
      ∃ before after : String, "#include \"b.acs\" // todo: sort\nint x, y;" = before ++ after ∧
        Text.byteLength before.toList = f.scanner.position ∧
        (start .standard).ReadsInParts (.ofList [("b.acs", .ofText "int z;")]) "a.acs" before
          after := by
  have hposition : (Run.rounds (.ofList [("b.acs", .ofText "int z;")]) 3
      (.ofSource (.start .standard) (.ofList [("b.acs", .ofText "int z;")]) "a.acs"
        "#include \"b.acs\" // todo: sort\nint x, y;")).map
      (fun r => r.files.map (·.scanner.position)) = some [16] := by
    decide +kernel
  obtain ⟨r, hrounds, hfiles⟩ := Option.map_eq_some_iff.1 hposition
  obtain ⟨f, hfiles, hf⟩ := List.map_eq_singleton_iff.1 hfiles
  exact ⟨r, f, hrounds, hfiles, hf, readSource_in_parts hrounds hfiles⟩

end Session

end AcsOutline
