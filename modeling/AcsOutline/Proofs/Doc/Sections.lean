import AcsOutline.Proofs.Doc.Returns
import AcsOutline.Proofs.Text.Trim

/-!
# The sections of a documentation comment

What a documentation comment says can be told without going through it line by line: its lines are
stripped of their decoration, the empty ones are dropped, and the others are parted where a line
begins with `@` (`Doc.parts`).  Each part gives one text, and of the texts of one sort of section
the last one counts, or all of them where they describe parameters (`Doc.ofParts`).  A comment is
read as just this, or fails at the first tag that means nothing (`Doc.ofComment_eq_ofParts`).

The open section, with its text so far, is one more part before those that follow.  So the reading
of the lines that are left is the closing of that part and of the parts of these lines
(`Doc.foldlM_readLine_bare`), whatever was read before.
-/

namespace AcsOutline

namespace Doc

open Text

/-! ## Lines -/

/-- The lines of a text, without the line feed that ends each or the pair of a return and a line
feed. -/
def linesOf : List Char → List (List Char)
  | [] => [[]]
  | '\r' :: '\n' :: cs => [] :: linesOf cs
  | c :: cs => if c = '\n' then [] :: linesOf cs else (linesOf cs).modifyHead (c :: ·)

/-- The text of a comment without the asterisk that makes it a documentation comment. -/
def body : List Char → List Char
  | '*' :: cs => cs
  | cs => cs

/-- What is said on lines; those on which nothing is said are left out. -/
def bare (lines : List (List Char)) : List (List Char) :=
  (lines.map undecorate).filter (!·.isEmpty)

/-- What is said on the lines of a comment. -/
def bareLines (text : List Char) : List (List Char) :=
  bare (linesOf (body text))

/-! ## Parts -/

/-- A tagged section as it is written. -/
structure Part where
  /-- The tag, without the `@`. -/
  tag : String
  /-- What follows the tag on its line, and the lines behind it. -/
  pieces : List (List Char)

/-- The tag at the start of a text: its longest run of alphanumeric characters. -/
def tagOf (tagged : List Char) : String :=
  String.ofList (tagged.takeWhile isAlphanumeric)

/-- What follows a tag. -/
def behindTag (tagged : List Char) : List Char :=
  trimStart (tagged.dropWhile isAlphanumeric)

/-- The lines before the first tag, and the sections that the tags open. -/
def parts : List (List Char) → List (List Char) × List Part
  | [] => ([], [])
  | ('@' :: tagged) :: lines =>
    ([], ⟨tagOf tagged, behindTag tagged :: (parts lines).1⟩ :: (parts lines).2)
  | line :: lines => (line :: (parts lines).1, (parts lines).2)

/-- Pieces with a space between each two, empty ones left out. -/
def glue (pieces : List (List Char)) : List Char :=
  [' '].intercalate (pieces.filter (!·.isEmpty))

/-- The texts of the sections of one sort, in order; sections without text are left out. -/
def textsOf (s : Section) (tagged : List Part) : List (List Char) :=
  ((tagged.filter fun p => Section.ofTag? p.tag == some s).map (glue ·.pieces)).filter (!·.isEmpty)

/-- The documentation that sections make up: the last text of a summary and of a return section
counts, every text of a parameter section, and whether there is a hidden section.  What stands
before the first tag belongs to the summary. -/
def ofParts (opening : List (List Char)) (tagged : List Part) : Doc where
  summary := (([glue opening].filter (!·.isEmpty)) ++ textsOf .summary tagged).getLast?.map
    String.ofList
  parameters := (textsOf .parameter tagged).map parameterOf
  returns := (textsOf .returns tagged).getLast?.map String.ofList
  isHidden := tagged.any fun p => Section.ofTag? p.tag == some .hidden

/-- What a comment with these bare lines comes to: the first tag that means nothing is a fault. -/
def ofBareLines (lines : List (List Char)) (comment : Span) : Except Fault Doc :=
  match (parts lines).2.find? fun p => (Section.ofTag? p.tag).isNone with
  | some p => .error (.unknownTag p.tag comment)
  | none => .ok (ofParts (parts lines).1 (parts lines).2)

/-! ## Bare lines -/

/-- What is left of a line begins with something that is neither blank nor an asterisk. -/
theorem head?_undecorate {line : List Char} {c : Char} (h : (undecorate line).head? = some c) :
    (isBlank c || c == '*') = false := by
  have hhead := List.head?_dropWhile_not (fun c => isBlank c || c == '*') line
  rw [head?_of_isPrefix (trimEnd_isPrefix _) h] at hhead
  simpa using hhead

theorem getLast?_undecorate {line : List Char} {c : Char}
    (h : (undecorate line).getLast? = some c) : isBlank c = false :=
  getLast?_trimEnd _ c h

/-- A line without decoration stays as it is. -/
theorem undecorate_undecorate (line : List Char) :
    undecorate (undecorate line) = undecorate line := by
  have hstart : (undecorate line).dropWhile (fun c => isBlank c || c == '*') = undecorate line := by
    cases hline : undecorate line with
    | nil => rfl
    | cons c cs =>
      have hc : (isBlank c || c == '*') = false :=
        head?_undecorate (congrArg List.head? hline)
      exact List.dropWhile_cons_of_neg (by simp [hc])
  rw [undecorate, hstart]
  exact trimEnd_eq_self fun c hc => getLast?_undecorate hc

theorem tidy_undecorate {line : List Char} (h : undecorate line ≠ []) : Tidy (undecorate line) where
  nonempty := h
  head _ hc := (Bool.or_eq_false_iff.1 (head?_undecorate hc)).1
  last _ hc := getLast?_undecorate hc

/-- The lines are those between line feeds, but for the returns at their ends. -/
theorem forall₂_linesOf (cs : List Char) :
    List.Forall₂ LineEnd (linesOf cs) (cs.splitOn '\n') := by
  fun_induction linesOf cs with
  | case1 => exact .cons (.inl rfl) .nil
  | case2 cs ih =>
    rw [splitOn_cons (by decide), splitOn_sep]
    exact .cons (.inr rfl) ih
  | case3 cs _ ih =>
    rw [splitOn_sep]
    exact .cons (.inl rfl) ih
  | case4 c cs _ hc ih =>
    rw [splitOn_cons hc]
    exact forall₂_modifyHead ih [c]

/-- Nothing is said on a line that is all decoration. -/
theorem undecorate_eq_nil_iff {line : List Char} :
    undecorate line = [] ↔ ∀ c ∈ line, (isBlank c || c == '*') = true := by
  constructor
  · intro h
    refine List.dropWhile_eq_nil_iff.1 ?_
    cases hcut : line.dropWhile fun c => isBlank c || c == '*' with
    | nil => rfl
    | cons d ds =>
      have hhead := List.head?_dropWhile_not (fun c => isBlank c || c == '*') line
      have hblank := trimEnd_eq_nil_iff.1 h d (hcut ▸ List.mem_cons_self)
      rw [hcut] at hhead
      simp [hblank] at hhead
  · intro h
    rw [undecorate, List.dropWhile_eq_nil_iff.2 h]
    rfl

theorem bare_of_nil {line : List Char} (h : undecorate line = []) (lines : List (List Char)) :
    bare (line :: lines) = bare lines := by
  rw [bare, List.map_cons, List.filter_cons_of_neg (by simp [h]), bare]

theorem bare_of_ne_nil {line : List Char} (h : undecorate line ≠ []) (lines : List (List Char)) :
    bare (line :: lines) = undecorate line :: bare lines := by
  rw [bare, List.map_cons, List.filter_cons_of_pos (by simp [h]), bare]

theorem bare_cons (line : List Char) (lines : List (List Char)) :
    bare (line :: lines) = bare [line] ++ bare lines := by
  rw [← List.singleton_append, bare, List.map_append, List.filter_append, bare, bare]

theorem bare_eq {lines lines' : List (List Char)} (h : List.Forall₂ LineEnd lines lines') :
    bare lines' = bare lines := by
  rw [bare, bare, map_undecorate_eq h]

/-- The asterisk at the start of a comment is decoration like any other. -/
theorem bareLines_eq (text : List Char) : bareLines text = bare (text.splitOn '\n') := by
  rw [bareLines, ← bare_eq (forall₂_linesOf _)]
  unfold body
  split
  next cs =>
    rw [splitOn_cons (by decide)]
    cases cs.splitOn '\n' with
    | nil => rfl
    | cons line lines =>
      have hline : undecorate ('*' :: line) = undecorate line := by
        rw [undecorate, undecorate, List.dropWhile_cons_of_pos (by decide)]
      rw [List.modifyHead_cons, bare, bare, List.map_cons, List.map_cons, hline]
  · rfl

theorem undecorate_of_mem_bareLines {text line : List Char} (h : line ∈ bareLines text) :
    undecorate line = line ∧ line ≠ [] := by
  obtain ⟨hmem, hline⟩ := List.mem_filter.1 h
  obtain ⟨whole, -, rfl⟩ := List.mem_map.1 hmem
  exact ⟨undecorate_undecorate whole, by simpa using hline⟩

theorem tidy_of_mem_bareLines {text line : List Char} (h : line ∈ bareLines text) : Tidy line := by
  obtain ⟨heq, hne⟩ := undecorate_of_mem_bareLines h
  exact heq ▸ tidy_undecorate (heq.symm ▸ hne)

/-! ## Reading bare lines -/

namespace Progress

variable (comment : Span) (p : Progress)

theorem readLine_undecorate (line : List Char) :
    p.readLine comment (undecorate line) = p.readLine comment line := by
  rw [readLine, readLine, undecorate_undecorate]

theorem readLine_of_empty {line : List Char} (h : undecorate line = []) :
    p.readLine comment line = .ok p := by
  rw [readLine, h]
  rfl

/-- Only the bare lines are read. -/
theorem foldlM_readLine_eq (lines : List (List Char)) :
    lines.foldlM (readLine comment) p = (bare lines).foldlM (readLine comment) p := by
  induction lines generalizing p with
  | nil => rfl
  | cons line lines ih =>
    rw [List.foldlM_cons]
    by_cases hline : undecorate line = []
    · rw [bare_of_nil hline, readLine_of_empty comment p hline]
      exact ih p
    · rw [bare_of_ne_nil hline, List.foldlM_cons, readLine_undecorate]
      exact congrArg (p.readLine comment line >>= ·) (funext ih)

end Progress

/-- Stores sections with their texts, up to a tag that means nothing. -/
def storeAll (comment : Span) (d : Doc) : List Part → Except Fault Doc
  | [] => .ok d
  | p :: ps =>
    match Section.ofTag? p.tag with
    | none => .error (.unknownTag p.tag comment)
    | some s => storeAll comment (d.store s (glue p.pieces)) ps

theorem glue_nil_cons (pieces : List (List Char)) : glue ([] :: pieces) = glue pieces := rfl

/-- To add a piece to a text is to glue it on. -/
theorem glue_add (p : Progress) (piece : List Char) (pieces : List (List Char)) :
    glue ((p.add piece).text :: pieces) = glue (p.text :: piece :: pieces) := by
  unfold Progress.add
  split
  next h => rw [List.isEmpty_iff.1 h, glue, glue]; rfl
  next hpiece =>
    dsimp only
    split
    next h => rw [List.isEmpty_iff.1 h]; rfl
    next htext =>
      rw [glue, glue, List.filter_cons_of_pos (by simp), List.filter_cons_of_pos (by simp [htext]),
        List.filter_cons_of_pos (by simp [hpiece]), List.intercalate_cons_cons]
      cases pieces.filter (!·.isEmpty) with
      | nil => simp
      | cons next rest => simp [List.intercalate_cons_cons]

theorem glue_singleton (text : List Char) : glue [text] = text := by
  cases text with
  | nil => rfl
  | cons c cs => exact List.intercalate_singleton

theorem parts_of_untagged {line : List Char} (h : line.head? ≠ some '@')
    (lines : List (List Char)) :
    parts (line :: lines) = (line :: (parts lines).1, (parts lines).2) := by
  rw [parts.eq_3]
  rintro tagged rfl
  exact h rfl

namespace Progress

variable {comment : Span} {p : Progress}

theorem close_eq (p : Progress) : p.close = p.doc.store p.current (glue [p.text]) := by
  rw [glue_singleton, close]

@[simp]
theorem doc_add (text : List Char) : (p.add text).doc = p.doc := by
  unfold add
  split <;> rfl

@[simp]
theorem current_add (text : List Char) : (p.add text).current = p.current := by
  unfold add
  split <;> rfl

theorem readLine_of_untagged {line : List Char} (hline : undecorate line = line)
    (h : line.head? ≠ some '@') : p.readLine comment line = .ok (p.add line) := by
  rw [readLine, hline]
  split
  · exact absurd rfl h
  · rfl

theorem readLine_of_tagged {tagged : List Char}
    (hline : undecorate ('@' :: tagged) = '@' :: tagged) :
    p.readLine comment ('@' :: tagged) =
      match Section.ofTag? (tagOf tagged) with
      | none => .error (.unknownTag (tagOf tagged) comment)
      | some s => .ok (add ⟨p.close, s, []⟩ (behindTag tagged)) := by
  rw [readLine, hline]
  rfl

end Progress

/-- **Bare lines are read as the open section and the sections behind it.** -/
theorem foldlM_readLine_bare (comment : Span) {lines : List (List Char)}
    (h : ∀ line ∈ lines, undecorate line = line) (p : Progress) :
    (lines.foldlM (Progress.readLine comment) p).map Progress.close =
      storeAll comment (p.doc.store p.current (glue (p.text :: (parts lines).1)))
        (parts lines).2 := by
  induction lines generalizing p with
  | nil => exact congrArg Except.ok p.close_eq
  | cons line lines ih =>
    obtain ⟨hline, hlines⟩ := List.forall_mem_cons.1 h
    rw [List.foldlM_cons]
    by_cases htag : line.head? = some '@'
    · obtain ⟨tagged, rfl⟩ := List.head?_eq_some_iff.1 htag
      rw [Progress.readLine_of_tagged hline, parts, storeAll]
      dsimp only
      cases Section.ofTag? (tagOf tagged) with
      | none => rfl
      | some s =>
        -- the open section is stored, and the one that opens begins with what follows its tag
        refine (ih hlines _).trans ?_
        rw [glue_add, glue_nil_cons, Progress.doc_add, Progress.current_add, ← Progress.close_eq]
    · rw [Progress.readLine_of_untagged hline htag, parts_of_untagged htag]
      refine (ih hlines _).trans ?_
      rw [glue_add, Progress.doc_add, Progress.current_add]

/-! ## What is stored -/

section Store

variable {d : Doc} {s : Section} {text : List Char}

theorem summary_store (h : trim text = text) :
    (d.store s text).summary =
      if s = .summary ∧ text ≠ [] then some (String.ofList text) else d.summary := by
  cases s <;> simp only [store, h] <;> split <;> simp_all

theorem parameters_store (h : trim text = text) :
    (d.store s text).parameters =
      if s = .parameter ∧ text ≠ [] then d.parameters ++ [parameterOf text] else d.parameters := by
  cases s <;> simp only [store, h] <;> split <;> simp_all

theorem returns_store (h : trim text = text) :
    (d.store s text).returns =
      if s = .returns ∧ text ≠ [] then some (String.ofList text) else d.returns := by
  cases s <;> simp only [store, h] <;> split <;> simp_all

theorem isHidden_store : (d.store s text).isHidden = (d.isHidden || s == .hidden) := by
  cases s <;> simp only [store] <;> try split
  all_goals simp

end Store

/-- The texts of a sort of section, the first section and those behind it. -/
theorem textsOf_cons (s : Section) (p : Part) (ps : List Part) :
    textsOf s (p :: ps) =
      (if Section.ofTag? p.tag = some s ∧ glue p.pieces ≠ [] then [glue p.pieces] else []) ++
        textsOf s ps := by
  unfold textsOf
  by_cases htag : Section.ofTag? p.tag = some s <;> by_cases htext : glue p.pieces = [] <;>
    simp [htag, htext]

/-- Documentation to which sections are added. -/
def withParts (d : Doc) (ps : List Part) : Doc where
  summary := ((textsOf .summary ps).getLast?.map String.ofList).or d.summary
  parameters := d.parameters ++ (textsOf .parameter ps).map parameterOf
  returns := ((textsOf .returns ps).getLast?.map String.ofList).or d.returns
  isHidden := d.isHidden || ps.any fun p => Section.ofTag? p.tag == some .hidden

theorem withParts_nil (d : Doc) : d.withParts [] = d := by
  simp [withParts, textsOf]

/-- Of the texts of a sort of section the last one counts, and what was there before them only where
there are none. -/
theorem last_append {α : Type} {c : Prop} [Decidable c] (f : List Char → α) (text : List Char)
    (texts : List (List Char)) (before : Option α) :
    (((if c then [text] else []) ++ texts).getLast?.map f).or before =
      (texts.getLast?.map f).or (if c then some (f text) else before) := by
  rw [List.getLast?_append]
  split <;> cases texts.getLast? <;> rfl

theorem withParts_cons {d : Doc} {p : Part} {ps : List Part} {s : Section}
    (hs : Section.ofTag? p.tag = some s) (h : trim (glue p.pieces) = glue p.pieces) :
    (d.store s (glue p.pieces)).withParts ps = d.withParts (p :: ps) := by
  unfold withParts
  simp only [textsOf_cons, hs, Option.some.injEq, summary_store h, parameters_store h,
    returns_store h, isHidden_store, last_append, List.any_cons, Doc.mk.injEq, true_and]
  constructor
  · split
    · rw [List.append_assoc, List.map_append]
      rfl
    · rw [List.nil_append]
  · rw [Bool.or_assoc]
    cases s <;> rfl

/-- Sections are stored one by one, unless one of them has a tag that means nothing. -/
theorem storeAll_eq (comment : Span) {ps : List Part}
    (h : ∀ p ∈ ps, trim (glue p.pieces) = glue p.pieces) (d : Doc) :
    storeAll comment d ps =
      match ps.find? fun p => (Section.ofTag? p.tag).isNone with
      | some p => .error (.unknownTag p.tag comment)
      | none => .ok (d.withParts ps) := by
  induction ps generalizing d with
  | nil => rw [withParts_nil]; rfl
  | cons p ps ih =>
    obtain ⟨hp, hps⟩ := List.forall_mem_cons.1 h
    rw [storeAll]
    cases hs : Section.ofTag? p.tag with
    | none => rw [List.find?_cons_of_pos (by simp [hs])]
    | some s =>
      rw [List.find?_cons_of_neg (by simp [hs])]
      dsimp only
      rw [ih hps, withParts_cons hs hp]

/-- What stands before the first tag is the first text of the summary. -/
theorem withParts_store_empty {opening : List (List Char)} (h : trim (glue opening) = glue opening)
    (tagged : List Part) :
    (store .empty .summary (glue opening)).withParts tagged = ofParts opening tagged := by
  unfold withParts ofParts
  rw [summary_store h, parameters_store h, returns_store h, isHidden_store]
  simp only [reduceCtorEq, false_and, if_false, true_and, Doc.mk.injEq]
  refine ⟨?_, rfl, Option.or_none, rfl⟩
  rw [← last_append String.ofList]
  by_cases hne : glue opening = [] <;> simp [hne, empty]

/-! ## Tidy texts -/

theorem tidy_intercalate {pieces : List (List Char)} (h : ∀ piece ∈ pieces, Tidy piece)
    (hne : pieces ≠ []) : Tidy ([' '].intercalate pieces) := by
  induction pieces with
  | nil => exact absurd rfl hne
  | cons piece pieces ih =>
    obtain ⟨hpiece, hpieces⟩ := List.forall_mem_cons.1 h
    cases pieces with
    | nil => rwa [List.intercalate_singleton]
    | cons next rest =>
      rw [List.intercalate_cons_cons]
      exact hpiece.append (ih hpieces (List.cons_ne_nil _ _)) [' ']

/-- Of tidy pieces comes a tidy text, or nothing. -/
theorem tidy_glue {pieces : List (List Char)} (h : ∀ piece ∈ pieces, piece ≠ [] → Tidy piece)
    (hne : glue pieces ≠ []) : Tidy (glue pieces) := by
  refine tidy_intercalate (fun piece hpiece => ?_) fun hnil => hne (by rw [glue, hnil]; rfl)
  obtain ⟨hmem, hpiece⟩ := List.mem_filter.1 hpiece
  exact h piece hmem (by simpa using hpiece)

/-- What stands behind the tag of a tidy line is tidy, or nothing. -/
theorem tidy_behindTag {tagged : List Char} (h : Tidy ('@' :: tagged))
    (hne : behindTag tagged ≠ []) : Tidy (behindTag tagged) :=
  h.trimStart_suffix ((List.dropWhile_suffix _).trans (List.suffix_cons _ _)) hne

theorem tidy_of_mem_parts {lines : List (List Char)} (h : ∀ line ∈ lines, Tidy line) :
    (∀ piece ∈ (parts lines).1, piece ≠ [] → Tidy piece) ∧
      ∀ p ∈ (parts lines).2, ∀ piece ∈ p.pieces, piece ≠ [] → Tidy piece := by
  fun_induction parts lines with
  | case1 => exact ⟨fun _ h => absurd h List.not_mem_nil, fun _ h => absurd h List.not_mem_nil⟩
  | case2 tagged lines ih =>
    obtain ⟨hline, hlines⟩ := List.forall_mem_cons.1 h
    obtain ⟨hopening, htagged⟩ := ih hlines
    refine ⟨fun _ h => absurd h List.not_mem_nil, List.forall_mem_cons.2 ⟨?_, htagged⟩⟩
    exact List.forall_mem_cons.2 ⟨tidy_behindTag hline, hopening⟩
  | case3 line lines _ ih =>
    obtain ⟨hline, hlines⟩ := List.forall_mem_cons.1 h
    obtain ⟨hopening, htagged⟩ := ih hlines
    exact ⟨List.forall_mem_cons.2 ⟨fun _ => hline, hopening⟩, htagged⟩

/-- The texts of tidy pieces are trimmed. -/
theorem trim_glue {pieces : List (List Char)} (h : ∀ piece ∈ pieces, piece ≠ [] → Tidy piece) :
    trim (glue pieces) = glue pieces := by
  by_cases hne : glue pieces = []
  · rw [hne]
    rfl
  · exact (tidy_glue h hne).trim_eq

/-- Documentation in which every text is tidy. -/
structure IsTidy (d : Doc) : Prop where
  summary : ∀ text, d.summary = some text → Tidy text.toList
  name : ∀ p ∈ d.parameters, Tidy p.name.toList
  description : ∀ p ∈ d.parameters, ∀ text, p.description = some text → Tidy text.toList
  returns : ∀ text, d.returns = some text → Tidy text.toList

theorem tidy_name_parameterOf {text : List Char} (h : Tidy text) :
    Tidy (parameterOf text).name.toList := by
  have hname : (parameterOf text).name = String.ofList (text.takeWhile (!isBlank ·)) := by
    unfold parameterOf
    dsimp only
    split <;> rfl
  rw [hname, String.toList_ofList]
  have hblank : ∀ c ∈ text.takeWhile (!isBlank ·), isBlank c = false := fun c hc => by
    simpa using List.mem_takeWhile_imp hc
  refine ⟨?_, fun c hc => hblank c (List.mem_of_mem_head? hc),
    fun c hc => hblank c (List.mem_of_mem_getLast? hc)⟩
  cases text with
  | nil => exact absurd rfl h.nonempty
  | cons c cs => simp [h.head c rfl]

theorem tidy_description_parameterOf {text : List Char} (h : Tidy text) {description : String}
    (hdescription : (parameterOf text).description = some description) :
    Tidy description.toList := by
  unfold parameterOf at hdescription
  dsimp only at hdescription
  split at hdescription
  · cases hdescription
  next c rest hrest =>
    obtain rfl := Option.some.inj hdescription
    rw [String.toList_ofList]
    -- the text goes on behind the blank that ends the name, since it does not end with one
    have hc : isBlank c = true := by
      have hhead := List.head?_dropWhile_not (fun c => !isBlank c) text
      rw [hrest] at hhead
      simpa using hhead
    have hlast : text.getLast? = (c :: rest).getLast? := by
      rw [← List.takeWhile_append_dropWhile (p := (!isBlank ·)) (l := text), hrest]
      exact List.getLast?_append_of_ne_nil _ (List.cons_ne_nil _ _)
    have hend : ∀ d, (c :: rest).getLast? = some d → isBlank d = false :=
      fun d hd => h.last d (hlast.trans hd)
    cases hcut : rest.getLast? with
    | none =>
      rw [List.getLast?_eq_none_iff.1 hcut] at hend
      rw [hend c rfl] at hc
      cases hc
    | some d =>
      have hd := hend d (by rw [List.getLast?_cons, hcut]; rfl)
      exact tidy_trim (trim_ne_nil (List.mem_of_mem_getLast? hcut) hd)

theorem isTidy_ofParts {opening : List (List Char)} {tagged : List Part}
    (hopening : ∀ piece ∈ opening, piece ≠ [] → Tidy piece)
    (htagged : ∀ p ∈ tagged, ∀ piece ∈ p.pieces, piece ≠ [] → Tidy piece) :
    (ofParts opening tagged).IsTidy := by
  have htexts : ∀ s, ∀ text ∈ textsOf s tagged, Tidy text := by
    intro s text htext
    obtain ⟨hmem, hne⟩ := List.mem_filter.1 htext
    obtain ⟨p, hp, rfl⟩ := List.mem_map.1 hmem
    exact tidy_glue (htagged p (List.mem_filter.1 hp).1) (by simpa using hne)
  have hlast : ∀ {texts : List (List Char)}, (∀ text ∈ texts, Tidy text) → ∀ text,
      texts.getLast?.map String.ofList = some text → Tidy text.toList := by
    intro texts h text htext
    obtain ⟨cs, hcs, rfl⟩ := Option.map_eq_some_iff.1 htext
    rw [String.toList_ofList]
    exact h cs (List.mem_of_mem_getLast? hcs)
  refine ⟨hlast fun text htext => ?_, fun p hp => ?_, fun p hp text htext => ?_,
    hlast (htexts .returns)⟩
  · rcases List.mem_append.1 htext with htext | htext
    · obtain ⟨hmem, hne⟩ := List.mem_filter.1 htext
      obtain rfl := List.mem_singleton.1 hmem
      exact tidy_glue hopening (by simpa using hne)
    · exact htexts .summary text htext
  · obtain ⟨cs, hcs, rfl⟩ := List.mem_map.1 hp
    exact tidy_name_parameterOf (htexts .parameter cs hcs)
  · obtain ⟨cs, hcs, rfl⟩ := List.mem_map.1 hp
    exact tidy_description_parameterOf (htexts .parameter cs hcs) htext

/-! ## Tags -/

/-- The tags of the sections are the tags of the lines, in order. -/
theorem map_tag_parts (lines : List (List Char)) :
    (parts lines).2.map (·.tag) =
      lines.filterMap fun
        | '@' :: tagged => some (tagOf tagged)
        | _ => none := by
  fun_induction parts lines with
  | case1 => rfl
  | case2 tagged lines ih => rw [List.map_cons, ih]; rfl
  | case3 line lines hline ih =>
    rw [ih, List.filterMap_cons_none]
    split
    · exact absurd rfl (hline _)
    · rfl

/-- A tag means nothing when it is none of the words that open a section. -/
theorem ofTag?_eq_none {tag : String} :
    Section.ofTag? tag = none ↔
      ∀ word ∈ ["summary", "description", "param", "return", "returns", "hidden"],
        sameWord word tag = false := by
  simp [Section.ofTag?, Section.tags]

/-! ## Margins -/

/-- What stands around a line: decoration before it and blank characters behind it. -/
structure Margin where
  before : List Char
  after : List Char
  decorates : ∀ c ∈ before, (isBlank c || c == '*') = true
  blank : ∀ c ∈ after, isBlank c = true
  feedless : '\n' ∉ before ++ after

/-- A line with a margin. -/
def Margin.pad (m : Margin) (line : List Char) : List Char :=
  m.before ++ line ++ m.after

/-- A text whose lines have margins. -/
def indent (margin : Nat → Margin) (text : List Char) : List Char :=
  ['\n'].intercalate ((text.splitOn '\n').mapIdx fun i line => (margin i).pad line)

/-- A margin is decoration. -/
theorem undecorate_pad (m : Margin) (line : List Char) :
    undecorate (m.pad line) = undecorate line := by
  rw [undecorate, Margin.pad, List.append_assoc, List.dropWhile_append_of_pos m.decorates,
    List.dropWhile_append]
  split
  next hnil =>
    -- nothing is said on the line, so that the blanks behind it are decoration, too
    have hblank : ∀ c ∈ m.after, (isBlank c || c == '*') = true :=
      fun c hc => by rw [m.blank c hc]; rfl
    rw [List.dropWhile_eq_nil_iff.2 hblank, undecorate, List.isEmpty_iff.1 hnil]
  next => rw [trimEnd_append m.blank, undecorate]

theorem splitOn_indent (margin : Nat → Margin) (text : List Char) :
    (indent margin text).splitOn '\n' =
      (text.splitOn '\n').mapIdx fun i line => (margin i).pad line := by
  refine List.splitOn_intercalate '\n' (fun line hline => ?_) ?_
  · obtain ⟨i, hi, rfl⟩ := List.mem_mapIdx.1 hline
    have hfeed : '\n' ∉ (text.splitOn '\n')[i] :=
      fun hc => (mem_of_mem_splitOn (List.getElem_mem hi) hc).2 rfl
    have hmargin := (margin i).feedless
    simp only [Margin.pad, List.mem_append, not_or] at hmargin ⊢
    exact ⟨⟨hmargin.1, hfeed⟩, hmargin.2⟩
  · exact fun hnil => List.splitOn_ne_nil _ _ (List.mapIdx_eq_nil_iff.1 hnil)

/-- Margins do not change what is said on the lines. -/
theorem bareLines_indent (margin : Nat → Margin) (text : List Char) :
    bareLines (indent margin text) = bareLines text := by
  have hpad : ((text.splitOn '\n').mapIdx fun i line => (margin i).pad line).map undecorate =
      (text.splitOn '\n').map undecorate :=
    List.ext_getElem (by simp) fun i _ _ => by simp [undecorate_pad]
  rw [bareLines_eq, bareLines_eq, splitOn_indent, bare, hpad, ← bare]

/-! ## Comments -/

/-- A comment is read as its bare lines. -/
theorem ofComment_eq_ofBareLines (text : String) (comment : Span) :
    ofComment text comment = ofBareLines (bareLines text.toList) comment := by
  obtain ⟨hopening, htagged⟩ :=
    tidy_of_mem_parts fun line (hline : line ∈ bareLines text.toList) => tidy_of_mem_bareLines hline
  calc ofComment text comment
      = (((body text.toList).splitOn '\n').foldlM (Progress.readLine comment) .start).map
          Progress.close := rfl
    _ = ((bareLines text.toList).foldlM (Progress.readLine comment) .start).map
          Progress.close := by
        rw [Progress.foldlM_readLine_eq, bare_eq (forall₂_linesOf _), bareLines]
    _ = storeAll comment (store .empty .summary (glue (parts (bareLines text.toList)).1))
          (parts (bareLines text.toList)).2 :=
        foldlM_readLine_bare comment (fun _ hline => (undecorate_of_mem_bareLines hline).1) .start
    _ = ofBareLines (bareLines text.toList) comment := by
        rw [storeAll_eq comment fun p hp => trim_glue (htagged p hp), ofBareLines,
          withParts_store_empty (trim_glue hopening)]

/-- Bare lines are at fault when one of them begins with a tag that means nothing. -/
theorem exists_ofBareLines_eq_error (lines : List (List Char)) (comment : Span) :
    (∃ fault, ofBareLines lines comment = .error fault ∧ fault.code.text = "E105") ↔
      ∃ tagged, '@' :: tagged ∈ lines ∧ Section.ofTag? (tagOf tagged) = none := by
  have htags : ∀ tag, (∃ p ∈ (parts lines).2, p.tag = tag) ↔
      ∃ tagged, '@' :: tagged ∈ lines ∧ tagOf tagged = tag := by
    intro tag
    rw [← List.mem_map, map_tag_parts, List.mem_filterMap]
    constructor
    · rintro ⟨line, hline, htag⟩
      split at htag
      next tagged => exact ⟨tagged, hline, Option.some.inj htag⟩
      next => cases htag
    · rintro ⟨tagged, hline, rfl⟩
      exact ⟨_, hline, rfl⟩
  unfold ofBareLines
  cases hfind : (parts lines).2.find? fun p => (Section.ofTag? p.tag).isNone with
  | some p =>
    obtain ⟨tagged, hline, htag⟩ := (htags p.tag).1 ⟨p, List.mem_of_find?_eq_some hfind, rfl⟩
    have hnone := List.find?_some hfind
    exact iff_of_true ⟨_, rfl, rfl⟩ ⟨tagged, hline, htag ▸ Option.isNone_iff_eq_none.1 hnone⟩
  | none =>
    refine iff_of_false (fun ⟨_, h, _⟩ => by cases h) fun ⟨tagged, hline, htag⟩ => ?_
    obtain ⟨p, hp, heq⟩ := (htags (tagOf tagged)).2 ⟨tagged, hline, rfl⟩
    exact List.find?_eq_none.1 hfind p hp (by rw [heq, htag]; rfl)

/-- **A comment is read by its sections.**  It is what its parts make up, unless a line begins with
a tag that is none of the known words; every text that is read is tidy, and margins around the lines
change nothing. -/
theorem ofComment_eq_ofParts (text : String) (comment : Span) :
    ofComment text comment = ofBareLines (bareLines text.toList) comment ∧
      ((∃ fault, ofComment text comment = .error fault ∧ fault.code.text = "E105") ↔
        ∃ tagged, '@' :: tagged ∈ bareLines text.toList ∧
          ∀ word ∈ ["summary", "description", "param", "return", "returns", "hidden"],
            sameWord word (tagOf tagged) = false) ∧
      (ofParts (parts (bareLines text.toList)).1 (parts (bareLines text.toList)).2).IsTidy ∧
      ∀ margin : Nat → Margin,
        ofComment (String.ofList (indent margin text.toList)) comment = ofComment text comment := by
  obtain ⟨hopening, htagged⟩ :=
    tidy_of_mem_parts fun line (hline : line ∈ bareLines text.toList) => tidy_of_mem_bareLines hline
  refine ⟨ofComment_eq_ofBareLines text comment, ?_, isTidy_ofParts hopening htagged,
    fun margin => ?_⟩
  · simp only [ofComment_eq_ofBareLines, exists_ofBareLines_eq_error, ofTag?_eq_none]
  · rw [ofComment_eq_ofBareLines, ofComment_eq_ofBareLines, String.toList_ofList, bareLines_indent]

end Doc

end AcsOutline
