import AcsOutline.Document
import AcsOutline.Proofs.Printing.Rounds

/-!
# Reading printed trees

**A tree in normal form is read back from its text** (`Document.ofSource_text`): the same
declarations, in the same order and in the same namespaces, and nothing else, except for the task
notes in the initialisers of arrays.

The lines of a tree are read as the tree is built up (`Run.reads_lines`): the declarations of a
level one by one, and then each of its namespaces between the two lines that open and leave it.
Since the keys of a level are different, each namespace is a new one.
-/

namespace AcsOutline

open Printing

/-! ## What is read back -/

/-- A declaration without its line. -/
def Entry.unlined (e : Entry) : Entry :=
  { e with line := 0 }

/-- The task notes in a declaration, without their lines. -/
def Declaration.taskNotes (tags : List String) (file : String) (d : Declaration) : List TaskNote :=
  TaskNote.ofComments tags file (some d.label) d.remarks

/-- A level that was read back: it has the declarations of the printed one, and the task notes that
stand in these. -/
structure Tree.ReadBack (tags : List String) (file : String) (t t' : Tree) : Prop where
  entries : t'.entries.toList.map Entry.unlined = t.entries.toList.map Entry.unlined
  notes : t'.notes.toList.map TaskNote.unlined =
    t.entries.toList.flatMap fun e => e.declaration.taskNotes tags file

/-- Some declarations were read into a level. -/
structure Tree.Grown (tags : List String) (file : String) (ds : List Declaration) (t t' : Tree) :
    Prop where
  entries : t'.entries.toList.map Entry.unlined =
    t.entries.toList.map Entry.unlined ++ ds.map fun d => ⟨d, 0, none⟩
  notes : t'.notes.toList.map TaskNote.unlined =
    t.notes.toList.map TaskNote.unlined ++ ds.flatMap (·.taskNotes tags file)
  children : t'.children = t.children

namespace Tree

variable {tags : List String} {file : String} {t t' t'' : Tree} {d : Declaration}
  {ds : List Declaration}

theorem Grown.refl (t : Tree) : Grown tags file [] t t :=
  ⟨(List.append_nil _).symm, (List.append_nil _).symm, rfl⟩

theorem Grown.cons (h : Grown tags file [d] t t') (h' : Grown tags file ds t' t'') :
    Grown tags file (d :: ds) t t'' where
  entries := by
    rw [h'.entries, h.entries, List.append_assoc]
    rfl
  notes := by
    rw [h'.notes, h.notes, List.flatMap_singleton, List.append_assoc, ← List.flatMap_cons]
  children := h'.children.trans h.children

/-- What stands on the pages of a tree. -/
theorem toList_text (t : Tree) : t.text.toList = t.lines.foldr page [] := by
  rw [text]
  induction t.lines with
  | nil => rfl
  | cons words lines ih =>
    rw [List.map_cons, String.join_cons, String.toList_append, ih, List.foldr_cons,
      String.toList_append, List.append_assoc]
    rfl

end Tree

/-! ## Lines -/

namespace Run

/-- From a text on a run goes on with what stands below the text, and on the way it builds what is
said. -/
def Reads (files : SourceFiles) (base : Session) (file : OpenFile) (builder : Builder)
    (text : List Char) (built : Builder → Prop) (below : List Char) : Prop :=
  ∀ ⦃s rs⦄, s.Below text rs → ∃ t rs' left, built left ∧ t.Below below rs' ∧
    (reading base file builder s).complete files = (reading base file left t).complete files

variable {files : SourceFiles} {base : Session} {file : OpenFile} {builder left : Builder}
  {here : Tree} {above : List (NamespaceKey × Tree)} {text middle b : List Char}
  {built built' : Builder → Prop}

theorem reads_nil (builder : Builder) : Reads files base file builder b (· = builder) b :=
  fun s rs h => ⟨s, rs, builder, rfl, h, rfl⟩

theorem Reads.bind (h : Reads files base file builder text built middle)
    (h' : ∀ left, built left → Reads files base file left middle built' b) :
    Reads files base file builder text built' b := by
  intro s rs hs
  obtain ⟨t, rs', left, hleft, ht, hcomplete⟩ := h hs
  obtain ⟨u, rs'', left', hleft', hu, hcomplete'⟩ := h' left hleft ht
  exact ⟨u, rs'', left', hleft', hu, hcomplete.trans hcomplete'⟩

theorem Reads.imp (h : Reads files base file builder text built b)
    (himp : ∀ left, built left → built' left) :
    Reads files base file builder text built' b := by
  intro s rs hs
  obtain ⟨t, rs', left, hleft, hrest⟩ := h hs
  exact ⟨t, rs', left, himp left hleft, hrest⟩

theorem reads_declaration (hcancelled : base.isCancelled = false) (hdoc : base.pendingDoc = none)
    {d : Declaration} (hd : d.IsNormal) :
    Reads files base file ⟨here, above⟩ (page d.words b)
      (fun left => ∃ here', left = ⟨here', above⟩ ∧
        Tree.Grown base.options.tags file.name [d] here here') b := by
  intro s rs hs
  obtain ⟨w, kind, ws, hwords, hw⟩ := Declaration.begins hd
  rw [hwords] at hs
  have hat := Scanner.At.of_faces hs.faces hs.mask_eq hw
  obtain ⟨t, hrecognize, hbelow⟩ := exists_recognize hd hwords hat ⟨here, above⟩
  have hinclude : ∀ path, d ≠ .includeFile path := by
    rintro path rfl
    exact hd
  obtain ⟨notes, line, hnotes, hcomplete⟩ :=
    exists_complete_of_recognize hcancelled hdoc hs hw hinclude hrecognize
  have hsuffix := hs.skipped_suffix hw hrecognize
  rw [Scanner.lineComments_triviaSince hsuffix (hbelow.comments_eq.trans
    (congrArg (· ++ d.remarks) hat.comments_eq.symm))] at hnotes
  refine ⟨t, _, _, ⟨_, Builder.pushNotes_eq _ _, ?_⟩, hbelow, hcomplete⟩
  constructor
  · show (here.entries.push ⟨d, line, none⟩).toList.map Entry.unlined = _
    rw [Array.toList_push, List.map_append]
    rfl
  · show (here.notes ++ notes.toArray).toList.map TaskNote.unlined = _
    rw [Array.toList_append, List.map_append, hnotes, List.flatMap_singleton]
    rfl
  · rfl

theorem reads_declarations (hcancelled : base.isCancelled = false) (hdoc : base.pendingDoc = none)
    {ds : List Declaration} (hds : ∀ d ∈ ds, d.IsNormal) :
    Reads files base file ⟨here, above⟩ ((ds.map Declaration.words).foldr page b)
      (fun left => ∃ here', left = ⟨here', above⟩ ∧
        Tree.Grown base.options.tags file.name ds here here') b := by
  induction ds generalizing here with
  | nil => exact (reads_nil _).imp fun left hleft => ⟨here, hleft, .refl here⟩
  | cons d ds ih =>
    refine (reads_declaration hcancelled hdoc (hds d List.mem_cons_self)).bind ?_
    rintro _ ⟨here', rfl, hgrown⟩
    refine (ih fun e he => hds e (List.mem_cons_of_mem d he)).imp ?_
    rintro _ ⟨here'', rfl, hgrown'⟩
    exact ⟨here'', rfl, hgrown.cons hgrown'⟩

theorem reads_open (hcancelled : base.isCancelled = false) {key : NamespaceKey}
    (hname : ∀ n ∈ key.name, IsName n) :
    Reads files base file builder (page key.words b) (· = builder.enter key) b := by
  intro s rs hs
  obtain ⟨w, kind, ws, hwords, hw⟩ := key.begins
  rw [hwords] at hs
  have hat := Scanner.At.of_faces hs.faces hs.mask_eq hw
  obtain ⟨t, hrecognize, hbelow⟩ := exists_recognize_open hname hwords hat builder
  have hcomments : Trivia.lineComments (t.triviaSince s.next.triviaCount) = [] :=
    Scanner.lineComments_triviaSince (hs.skipped_suffix hw hrecognize)
      (by rw [hbelow.comments_eq, hat.comments_eq, List.append_nil])
  exact ⟨t, _, _, rfl, hbelow, complete_of_recognize_none hcancelled hs hw hrecognize hcomments⟩

theorem reads_close (hcancelled : base.isCancelled = false) (hleave : builder.leave? = some left) :
    Reads files base file builder (page ["\x7d"] b) (· = left) b := by
  intro s rs hs
  have hat := Scanner.At.of_faces hs.faces hs.mask_eq spells_rbrace
  obtain ⟨hrecognize, hbelow⟩ := exists_recognize_close hat hleave
  have hcomments : Trivia.lineComments (s.next.triviaSince s.next.triviaCount) = [] :=
    Scanner.lineComments_triviaSince (List.suffix_refl _) (List.append_nil _).symm
  exact ⟨s.next, _, _, rfl, hbelow,
    complete_of_recognize_none hcancelled hs spells_rbrace hrecognize hcomments⟩

/-! ## Levels -/

/-- The declarations of a level are read into an empty one. -/
theorem reads_entries (hcancelled : base.isCancelled = false) (hdoc : base.pendingDoc = none)
    {t : Tree} (ht : t.IsNormalLevel) :
    Reads files base file ⟨.empty, above⟩
      ((t.entries.toList.map fun e => e.declaration.words).foldr page b)
      (fun left => ∃ here', left = ⟨here', above⟩ ∧
        t.ReadBack base.options.tags file.name here' ∧ here'.children = []) b := by
  have hds : ∀ d ∈ t.entries.toList.map Entry.declaration, d.IsNormal := by
    intro d hd
    obtain ⟨e, he, rfl⟩ := List.mem_map.1 hd
    exact ht.declaration e (Array.mem_toList_iff.1 he)
  have hwords : (t.entries.toList.map fun e => e.declaration.words) =
      (t.entries.toList.map Entry.declaration).map Declaration.words := by
    rw [List.map_map]
    rfl
  rw [hwords]
  refine (reads_declarations hcancelled hdoc hds).imp ?_
  rintro _ ⟨here', rfl, hgrown⟩
  refine ⟨here', rfl, ⟨?_, ?_⟩, hgrown.children⟩
  · rw [hgrown.entries, List.map_map]
    refine List.map_congr_left fun e he => ?_
    have hnone := ht.doc e (Array.mem_toList_iff.1 he)
    obtain ⟨d, line, doc⟩ := e
    obtain rfl : doc = none := hnone
    rfl
  · rw [hgrown.notes, List.flatMap_map]
    rfl

mutual

/-- The lines of a tree are read into an empty level. -/
theorem reads_lines (hcancelled : base.isCancelled = false) (hdoc : base.pendingDoc = none)
    (above : List (NamespaceKey × Tree)) (b : List Char) (t : Tree)
    (ht : t.IsNormal) :
    Reads files base file ⟨.empty, above⟩ (t.lines.foldr page b)
      (fun left => ∃ t', left = ⟨t', above⟩ ∧
        t.Levelwise (Tree.ReadBack base.options.tags file.name) t') b := by
  obtain ⟨notes, entries, children⟩ := t
  obtain ⟨hlevel, hbelow⟩ := ht
  rw [Tree.lines, List.foldr_append]
  refine (reads_entries hcancelled hdoc hlevel).bind ?_
  rintro _ ⟨here, rfl, hback, hnone⟩
  have hnew : ∀ c ∈ children, c.1 ∉ here.children.map Prod.fst := by
    rw [hnone]
    exact fun _ _ h => nomatch h
  refine (reads_linesIn hcancelled hdoc here above b children hbelow hlevel.key hlevel.distinct
    hnew).imp ?_
  rintro _ ⟨children', rfl, hchildren⟩
  rw [hnone, List.nil_append]
  exact ⟨_, rfl, ⟨hback.entries, hback.notes⟩, hchildren⟩

/-- The lines of namespaces are read into a level that has none of them yet. -/
theorem reads_linesIn (hcancelled : base.isCancelled = false) (hdoc : base.pendingDoc = none)
    (here : Tree) (above : List (NamespaceKey × Tree)) (b : List Char)
    (children : List (NamespaceKey × Tree)) (ht : Tree.EveryLevelIn Tree.IsNormalLevel children)
    (hname : ∀ c ∈ children, ∀ name ∈ c.1.name, IsName name)
    (hdistinct : (children.map Prod.fst).Nodup)
    (hnew : ∀ c ∈ children, c.1 ∉ here.children.map Prod.fst) :
    Reads files base file ⟨here, above⟩ ((Tree.linesIn children).foldr page b)
      (fun left => ∃ children',
        left = ⟨{ here with children := here.children ++ children' }, above⟩ ∧
          Tree.LevelwiseIn (Tree.ReadBack base.options.tags file.name) children children') b := by
  cases children with
  | nil =>
    refine (reads_nil _).imp fun left hleft => ⟨[], ?_, trivial⟩
    obtain ⟨notes, entries, children⟩ := here
    rw [hleft, List.append_nil]
  | cons c rest =>
    obtain ⟨key, t⟩ := c
    rw [List.map_cons, List.nodup_cons] at hdistinct
    have hkey : key ∉ here.children.map Prod.fst := hnew (key, t) List.mem_cons_self
    rw [Tree.linesIn, List.foldr_cons, List.foldr_append, List.foldr_cons]
    refine (reads_open hcancelled (hname (key, t) List.mem_cons_self)).bind ?_
    rintro _ rfl
    rw [Builder.enter, Tree.child?, Tree.lookup_of_not_mem hkey, Option.getD_none]
    refine (reads_lines hcancelled hdoc _ _ t ht.1).bind ?_
    rintro _ ⟨t', rfl, hlevels⟩
    have hleave : (Builder.mk t' ((key, here) :: above)).leave? =
        some ⟨{ here with children := here.children ++ [(key, t')] }, above⟩ := by
      show some (Builder.mk (here.insertChild key t') above) = _
      rw [Tree.insertChild, Tree.insertAmong_of_not_mem hkey]
    refine (reads_close hcancelled hleave).bind ?_
    rintro _ rfl
    -- the namespace that was read is one of the level now, and the others are still new
    have hstill : ∀ c ∈ rest, c.1 ∉ (here.children ++ [(key, t')]).map Prod.fst := by
      intro c hc hmem
      rw [List.map_append, List.mem_append] at hmem
      rcases hmem with hmem | hmem
      · exact hnew c (List.mem_cons_of_mem _ hc) hmem
      · rw [List.map_singleton, List.mem_singleton] at hmem
        exact hdistinct.1 (hmem ▸ List.mem_map_of_mem hc)
    refine (reads_linesIn hcancelled hdoc { here with children := here.children ++ [(key, t')] }
      above b rest ht.2 (fun c hc => hname c (List.mem_cons_of_mem _ hc)) hdistinct.2 hstill).imp ?_
    rintro _ ⟨children', rfl, hrest⟩
    exact ⟨(key, t') :: children', by rw [List.append_assoc]; rfl, rfl, hlevels, hrest⟩

end

/-- A run ends below the last line. -/
theorem complete_reading_nil (hcancelled : base.isCancelled = false) {s : Scanner}
    {rs : List String} (h : s.Below [] rs) :
    (reading base file builder s).complete files = (none, { base with builder := builder }) := by
  obtain ⟨hrest, hskips⟩ := h.faces.skip rfl
  have heof : s.next.token.kind = .eof := by
    show (Lexeme.read s.skipTrivia.rest).1.kind = .eof
    rw [hrest]
    rfl
  exact complete_of_eof hcancelled hskips heof

end Run

/-! ## Whole trees -/

theorem Scanner.below_ofString (source : String) : (ofString source).Below source.toList [] where
  faces := ⟨⟨[], rfl, fun _ h => nomatch h⟩, rfl, counted_ofList _⟩
  mask_eq := rfl
  comments_eq := rfl

/-- **A tree in normal form is read back from its text**, in any session of its own: there is no
failure and no warning, and at every level there are the same declarations in the same order and
the same namespaces in the same order.  The only task notes are those in the initialisers of
arrays. -/
theorem Document.ofSource_text (options : ReadOptions) (files : SourceFiles) (name : String)
    {t : Tree} (ht : t.IsNormal) :
    ∃ t', ofSource options false files name t.text =
        .ok ⟨t', #[], #[(files.resolve name).key]⟩ ∧
      t.Levelwise (Tree.ReadBack options.tags name) t' := by
  have hbelow := Scanner.below_ofString t.text
  rw [Tree.toList_text] at hbelow
  have hreads : Run.Reads files
      { Session.start options with visited := #[(files.resolve name).key] }
      (.start name t.text (Path.parent? name)) .empty (t.lines.foldr page [])
      (fun left => ∃ t', left = ⟨t', []⟩ ∧ t.Levelwise (Tree.ReadBack options.tags name) t') [] :=
    Run.reads_lines rfl rfl [] [] t ht
  obtain ⟨s, rs, left, ⟨t', rfl, hlevels⟩, hend, hcomplete⟩ :=
    hreads hbelow
  have hread : (Session.start options).readSource files name t.text =
      (none, { Session.start options with
        visited := #[(files.resolve name).key], builder := ⟨t', []⟩ }) := by
    rw [Session.readSource, Session.visit_start]
    exact hcomplete.trans (Run.complete_reading_nil rfl hend)
  refine ⟨t', ?_, hlevels⟩
  rw [ofSource, if_neg Bool.false_ne_true, hread]
  rfl

/-- A define with a group in its value, and in a namespace an array whose initialiser goes over two
lines and holds a note. -/
theorem Document.ofSource_text_namespace :
    ∃ t : Tree, t.IsNormal ∧
      t.text = "#define LIMIT 2 * (x)\nstrict namespace Game \x7b\n" ++
        "private int a[] = \x7b 1, // todo: more\n  2 \x7d, b;\n\x7d\n" ∧
      ∃ t', ofSource .standard false (.ofList []) "a.acs" t.text = .ok ⟨t', #[], #["a.acs"]⟩ ∧
        t.Levelwise (Tree.ReadBack ReadOptions.standard.tags "a.acs") t' := by
  have hname : ∀ s ∈ ["LIMIT", "Game", "int", "a", "b"], IsName s := by
    intro s hs
    simp only [List.mem_cons, List.not_mem_nil, or_false] at hs
    rcases hs with rfl | rfl | rfl | rfl | rfl <;>
      exact ⟨.of_check (by decide), by decide⟩
  have hvalue : IsReadable
      ⟨[.leaf .number "2", .leaf .symbol "*", .group [.leaf .symbol "x"]]⟩ := by
    have hends : Scanner.ValueEnds ((Workbench.ofScanner (.ofList "2 * (x)".toList)).after
        [.next]).scanner 5 := ⟨by decide +kernel, by decide +kernel⟩
    have hread := (Value.read_eq hends).trans (if_neg (by decide +kernel))
    have hvalue : Value.ofRun (((Workbench.ofScanner (.ofList "2 * (x)".toList)).after
        [.next]).scanner.run 5) =
          ⟨[.leaf .number "2", .leaf .symbol "*", .group [.leaf .symbol "x"]]⟩ := by
      decide +kernel
    exact ⟨_, [.next], _, by simp, hvalue ▸ hread⟩
  have hbraces : IsBraceGroup "\x7b 1, // todo: more\n  2 \x7d" 4 :=
    ⟨by decide +kernel, by decide +kernel, by decide +kernel, by decide +kernel⟩
  have hdefine : Declaration.IsNormal
      (.define ⟨"LIMIT", ⟨[.leaf .number "2", .leaf .symbol "*", .group [.leaf .symbol "x"]]⟩⟩) :=
    DefineDecl.IsNormal.mk (hname _ (by simp)) (by decide +kernel) hvalue
  have hvariables : Declaration.IsNormal (.variableGroup ⟨true, "int",
      [.array "a" none (some "\x7b 1, // todo: more\n  2 \x7d"), .scalar "b" none]⟩) := by
    refine VariablesDecl.IsNormal.mk ⟨hname _ (by simp), by decide +kernel⟩ (by simp) ?_
    intro v hv
    rcases List.mem_cons.1 hv with rfl | hv
    · exact ⟨hname "a" (by simp), by simp, by simpa using ⟨4, hbraces⟩⟩
    · rw [List.mem_singleton.1 hv]
      exact ⟨hname "b" (by simp), by simp⟩
  have hnormal : Tree.IsNormal ⟨#[], #[⟨.define ⟨"LIMIT", ⟨[.leaf .number "2", .leaf .symbol "*",
      .group [.leaf .symbol "x"]]⟩⟩, 1, none⟩], [(⟨true, some "Game"⟩,
        ⟨#[], #[⟨.variableGroup ⟨true, "int", [.array "a" none (some "\x7b 1, // todo: more\n  2 \x7d"),
          .scalar "b" none]⟩, 3, none⟩], []⟩)]⟩ :=
    ⟨⟨rfl, by simp, by simpa using hdefine, by simpa using hname "Game" (by simp), by simp⟩,
      ⟨⟨rfl, by simp, by simpa using hvariables, by simp, by simp⟩, trivial⟩, trivial⟩
  have htext := ofSource_text .standard (.ofList []) "a.acs" hnormal
  have hkey : ((SourceFiles.ofList []).resolve "a.acs").key = "a.acs" := by decide +kernel
  rw [hkey] at htext
  exact ⟨_, hnormal, by decide +kernel, htext⟩

end AcsOutline
