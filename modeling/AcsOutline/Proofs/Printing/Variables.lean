import AcsOutline.Proofs.Grammar.Forms
import AcsOutline.Proofs.Printing.Braces
import AcsOutline.Proofs.Printing.Parts

/-!
# Printed variables and directives

Variables and directives are read from their words.  The line of a define goes on to its end, so
that it leaves a scanner below the line (`Scanner.Below`), where every other declaration leaves it
as well.
-/

namespace AcsOutline

open Printing

/-! ## Values that were read -/

/-- A value that can be read has legible leaves. -/
theorem Printing.IsReadable.legible {v : Value} (h : IsReadable v) :
    Value.LegibleLeaves v.pieces := by
  obtain ⟨source, cs, t, hcs, hread⟩ := h
  exact Value.legibleLeaves_of_read source
    (fun mask hmask => by rw [hcs mask hmask]; rfl) hread

/-! ## Below a line -/

/-- A scanner that skips all trivia is at the start of a line, or before the line break there. -/
structure Scanner.Below (s : Scanner) (text : List Char) (remarks : List String) : Prop where
  faces : s.Faces text
  mask_eq : s.mask = .all
  comments_eq : s.comments = remarks

theorem Scanner.At.below {s : Scanner} {w : String} {b : List Char} {rs : List String}
    (h : s.At ⟨w, [], b, rs⟩) : s.Below b rs := by
  obtain ⟨blanks, hrest, hblanks⟩ := h.faces.rest_eq
  refine ⟨⟨⟨blanks ++ ['\n'], ?_, fun c hc => ?_⟩, h.faces.mask_blanks, h.faces.counted⟩,
    h.mask_eq, h.comments_eq⟩
  · rw [hrest, page_nil, List.append_assoc]
    rfl
  · rcases List.mem_append.1 hc with hc | hc
    · exact hblanks c hc
    · exact Or.inr ⟨List.mem_singleton.1 hc, by rw [h.mask_eq]; rfl⟩

/-- A reading that begins on a line and ends below it. -/
def Reading.Ends {α : Type} (p : Reading α) (P : Place) (a : α) (rs : List String) : Prop :=
  ∀ ⦃s : Scanner⦄, s.At P → ∃ u, p s = .ok a u ∧ u.Below P.below rs

theorem Reading.Gives.ends {α : Type} {p : Reading α} {a : α} {v w : String} {ws : List String}
    {b : List Char} {rs rs' : List String} (h : p.Gives ⟨v, ws, b, rs⟩ a ⟨w, [], b, rs'⟩) :
    p.Ends ⟨v, ws, b, rs⟩ a rs' := by
  intro s hs
  obtain ⟨u, hu, hat⟩ := h hs
  exact ⟨u, hu, hat.below⟩

theorem Reading.Ends.map {α β : Type} {p : Reading α} {P : Place} {a : α} {rs : List String}
    (h : p.Ends P a rs) (f : α → β) : (f <$> p).Ends P (f a) rs := by
  intro s hs
  obtain ⟨u, hu, hbelow⟩ := h hs
  have hmap : (p >>= fun a => pure (f a)) s = .ok (f a) u := bind_eq_ok.2 ⟨a, u, hu, rfl⟩
  exact ⟨u, hmap, hbelow⟩

/-- Where the word behind a type and a name is no parenthesis, no function starts. -/
theorem Scanner.At.startsFunction_eq {s : Scanner} {kind : TokenKind} {text v name w : String}
    {ws : List String} {b : List Char} {rs : List String} (h : s.At ⟨v, name :: w :: ws, b, rs⟩)
    (hname : IsName name) (hw : Spells w kind text) (hne : kind ≠ .lparen) :
    s.startsFunction = false := by
  have hthird := ((h.next hname.spells).next hw).shows hw
  rw [startsFunction, beq_eq_false_iff_ne.2 (hthird.kind_ne hne), Bool.and_false]

namespace Grammar

open Reading

variable {kind : TokenKind} {text u v w : String} {us ws : List String} {b : List Char}
  {rs : List String} {more : Bool}

/-! ## Directives -/

theorem gives_quoted {s expected : String} (hs : IsQuotable s) :
    (quoted expected).Gives ⟨v, quote s :: ws, b, rs⟩ s ⟨quote s, ws, b, rs⟩ :=
  (finds_expect hs.spells).bind fun t ht => by
    show (pure t.text : Reading String).Gives _ _ _
    rw [ht.text_eq]
    exact gives_pure _ _

/-- **A define is read** up to the end of its line, which is a token while its value is read. -/
theorem ends_defineBody {d : DefineDecl} (hd : d.IsNormal) :
    defineBody.Ends ⟨v, d.words, b, rs⟩ d rs := by
  intro s h
  have hfinds : (expect .symbol "define name").Finds ⟨v, d.words, b, rs⟩ .symbol d.key
      ⟨d.key, d.value.tokens, b, rs⟩ := finds_expect hd.key.spells
  obtain ⟨t, s', hexpect, ht, hs'⟩ := hfinds h
  -- the value begins on the line, with line breaks as tokens
  have hfaces : (s'.withMask { s'.mask with newlines := false }).Faces
      (page (d.value.tokens ++ []) b) := by
    rw [List.append_nil]
    exact hs'.faces_withMask (by rw [hs'.mask_eq]; rfl)
  obtain ⟨e, he, hmask, hskips, hread⟩ := Value.read_of_faces hd.value.legible hfaces
  obtain ⟨hbreak, hrest, hskips'⟩ := he.next_break (by rw [hmask]; rfl)
  have hread := hread (by rw [hbreak]; rfl) (by rw [hbreak]; decide)
  have hvalue : withLineBreaks (do let _ ← next; Value.read) s' =
      .ok d.value (e.next.withMask s'.mask) := by
    have hbody : (do let _ ← next; Value.read : Reading Value)
        (s'.withMask { s'.mask with newlines := false }) = .ok d.value e.next := hread
    rw [withLineBreaks, hbody]
  refine ⟨e.next.withMask s'.mask, ?_, ⟨⟨[], hrest, fun _ hc => nomatch hc⟩, ?_, ?_⟩, ?_, ?_⟩
  · refine bind_eq_ok.2 ⟨t, s', hexpect, bind_eq_ok.2 ⟨_, _, hvalue, ?_⟩⟩
    rw [ht.text_eq, hd.upper]
    rfl
  · show s'.mask.blanks = true
    rw [hs'.mask_eq]
    rfl
  · exact he.counted.next
  · exact hs'.mask_eq
  · exact (hskips.trans hskips').comments_eq.trans hs'.comments_eq

theorem ends_directive {word : String} {body : Reading Declaration} {d : Declaration}
    (hword : IsName word) (hbody : body.Ends ⟨word, ws, b, rs⟩ d rs) :
    (directive word body).Ends ⟨"#", word :: ws, b, rs⟩ (some d) rs := by
  intro s h
  have hnext := h.next hword.spells
  obtain ⟨u, hu, hbelow⟩ := hbody.map some hnext
  have hhead : directiveWord word s = .ok (some ()) s.next := by
    rw [directiveWord_eq, if_pos ⟨(h.shows spells_hash).kind_eq, (hnext.shows hword.spells).isWord⟩]
  exact ⟨u, bind_eq_ok.2 ⟨some (), s.next, hhead, hu⟩, hbelow⟩

theorem ends_quotedDirective {word x expected : String} {declare : String → Declaration}
    (hword : IsName word) (hx : IsQuotable x) :
    (directive word (declare <$> quoted expected)).Ends ⟨"#", [word, quote x], b, rs⟩
      (some (declare x)) rs :=
  ends_directive hword ((gives_quoted hx).map declare).ends

theorem ends_defineDirective {word : String} {declare : DefineDecl → Declaration} {d : DefineDecl}
    (hword : IsName word) (hd : d.IsNormal) :
    (directive word (declare <$> defineBody)).Ends ⟨"#", word :: d.words, b, rs⟩
      (some (declare d)) rs :=
  ends_directive hword ((ends_defineBody hd).map declare)

/-! ## Variables with a number -/

theorem gives_takeEmptyBrackets (isArray : Bool) (hw : Spells w kind text)
    (hne : kind ≠ .lbracket) :
    (next >>= fun _ => takeEmptyBrackets).Gives
      ⟨v, (if isArray then ["[", "]"] else []) ++ w :: ws, b, rs⟩ isArray ⟨w, ws, b, rs⟩ := by
  cases isArray with
  | false =>
    refine (finds_next hw).bind fun _ _ => (finds_current hw).bind fun t ht => ?_
    rw [if_neg (ht.kind_ne hne)]
    exact gives_pure _ _
  | true =>
    refine (finds_next spells_lbracket).bind fun _ _ =>
      (finds_current spells_lbracket).bind fun t ht => ?_
    rw [if_pos ht.kind_eq]
    exact (finds_expect spells_rbracket).bind fun _ _ =>
      (finds_next hw).bind fun _ _ => gives_pure _ _

theorem gives_indexedVariable {x : IndexedVariable} (hx : x.IsNormal) :
    indexedVariable.Gives ⟨v, x.words, b, rs⟩ x ⟨";", [], b, rs⟩ := by
  refine (finds_expect hx.type.spells).bind fun type htype =>
    (finds_expect hx.index.spells).bind fun index hindex =>
      (finds_expect spells_colon).bind fun _ _ =>
        (finds_expect hx.name.spells).bind fun name hname => ?_
  refine (gives_takeEmptyBrackets x.isArray spells_semicolon (by decide)).bind_bind ?_
  refine (finds_current spells_semicolon).bind fun t ht => (finds_check ht _).bind fun _ _ => ?_
  rw [typeText_eq hx.type htype, hindex.text_eq, hname.text_eq]
  exact gives_pure x _

/-! ## Variables of one type -/

theorem gives_arrayTail {name : String} {size initializer : Option String}
    (hx : (Variable.array name size initializer).IsNormal) (hw : Spells w kind text)
    (hne : kind ≠ .equals) :
    (arrayTail name).Gives
      ⟨v, size.toList ++ "]" :: (marked "=" initializer ++ w :: ws), b, rs⟩
      (.array name size initializer)
      ⟨w, ws, b, rs ++ (Variable.array name size initializer).remarks⟩ := by
  obtain ⟨-, hsize, hinitializer⟩ := hx
  refine (gives_bracketSize hsize).bind ?_
  cases initializer with
  | none =>
    refine (finds_next hw).bind fun t ht => ?_
    rw [if_neg (ht.kind_ne hne), Variable.remarks, List.append_nil]
    exact gives_pure _ _
  | some source =>
    obtain ⟨n, hgroup⟩ := hinitializer source rfl
    refine (finds_next spells_equals).bind fun t ht => ?_
    rw [if_pos ht.kind_eq]
    exact (gives_arrayInitializer hgroup).bind ((finds_next hw).bind fun _ _ => gives_pure _ _)

/-- Where a value without braces begins, no brace is next. -/
theorem exists_first_word {x : Value} (hx : Value.LegibleLeaves x.pieces)
    (hbrace : ∀ leaf ∈ x.leaves, leaf.1 ≠ .lbrace) (hw : Spells w kind text)
    (hne : kind ≠ .lbrace) (ws : List String) :
    ∃ first kind text later, x.tokens ++ w :: ws = first :: later ∧ Spells first kind text ∧
      kind ≠ .lbrace := by
  rw [Value.tokens, Piece.tokensAll_eq_writeAll, Piece.writeAll_texts]
  cases hls : Piece.writeAll .lexemes x.pieces with
  | nil => exact ⟨w, kind, text, ws, rfl, hw, hne⟩
  | cons l ls =>
    have hl : l ∈ Piece.writeAll .lexemes x.pieces := hls ▸ List.mem_cons_self
    refine ⟨_, _, _, _, rfl, (hx.inValue l hl).spells, ?_⟩
    rcases Piece.cases_of_mem_writeAll hl with rfl | rfl | ⟨leaf, hleaf, rfl⟩
    · decide
    · decide
    · exact hbrace leaf hleaf

theorem gives_initialValue {name : String} {x : Value} (hx : IsReadable x)
    (hbrace : ∀ leaf ∈ x.leaves, leaf.1 ≠ .lbrace) (hw : Spells w kind text)
    (hends : Value.endsValue kind = true) (hne : kind ≠ .lbrace) :
    (initialValue name).Gives ⟨v, x.tokens ++ w :: ws, b, rs⟩ (.scalar name (some x))
      ⟨w, ws, b, rs⟩ := by
  obtain ⟨first, k, tx, later, hlater, hfirst, hk⟩ :=
    exists_first_word hx.legible hbrace hw hne ws
  have hvalue : (Reading.advance >>= fun _ => Value.read).Gives
      ⟨v, x.tokens ++ w :: ws, b, rs⟩ x ⟨w, ws, b, rs⟩ :=
    gives_advance_value hx.legible hw hends
  rw [hlater] at hvalue ⊢
  refine (finds_peek hfirst).bind fun t ht => ?_
  rw [if_neg (ht.kind_ne hk)]
  exact hvalue.bind_bind (gives_pure _ _)

theorem gives_initialRecord {name : String} {values : List String}
    (hvalues : ∀ x ∈ values, IsLiteral x) (hw : Spells w kind text) :
    (initialValue name).Gives
      ⟨v, "\x7b" :: (listed (values.map fun x => [x]) ++ "\x7d" :: w :: ws), b, rs⟩
      (.record name values) ⟨w, ws, b, rs⟩ := by
  refine (finds_peek spells_lbrace).bind fun t ht => ?_
  rw [if_pos ht.kind_eq]
  exact (gives_recordInitializer hvalues).bind ((finds_next hw).bind fun _ _ => gives_pure _ _)

/-- What follows the name of a variable is read, whichever sort of variable it is. -/
theorem gives_variableTail {x : Variable} (hx : x.IsNormal)
    (hmark : Parts ";" .semicolon w kind more) :
    (variableTail x.name).Gives ⟨v, x.words.tail ++ w :: ws, b, rs⟩ x
      ⟨w, ws, b, rs ++ x.remarks⟩ := by
  have hw := hmark.spells spells_semicolon
  obtain ⟨hends, hbracket, hequals, hbrace⟩ : Value.endsValue kind = true ∧
      kind ≠ .lbracket ∧ kind ≠ .equals ∧ kind ≠ .lbrace := by
    cases hmark <;> decide
  cases x with
  | scalar name value =>
    rw [Variable.remarks, List.append_nil]
    cases value with
    | none =>
      refine (finds_next hw).bind fun t ht => ?_
      rw [if_neg (ht.kind_ne hbracket), if_neg (ht.kind_ne hequals)]
      exact gives_pure _ _
    | some value =>
      obtain ⟨hvalue, hleaves⟩ := hx.2 value rfl
      refine (finds_next spells_equals).bind fun t ht => ?_
      rw [if_neg (ht.kind_ne (by decide)), if_pos ht.kind_eq]
      exact gives_initialValue hvalue hleaves hw hends hbrace
  | array name size initializer =>
    have hwords : (Variable.array name size initializer).words.tail ++ w :: ws =
        "[" :: (size.toList ++ "]" :: (marked "=" initializer ++ w :: ws)) := by
      simp [Variable.words]
    rw [hwords]
    refine (finds_next spells_lbracket).bind fun t ht => ?_
    rw [if_pos ht.kind_eq]
    exact gives_arrayTail hx hw hequals
  | record name values =>
    have hwords : (Variable.record name values).words.tail ++ w :: ws =
        "=" :: "\x7b" :: (listed (values.map fun x => [x]) ++ "\x7d" :: w :: ws) := by
      simp [Variable.words]
    rw [hwords, Variable.remarks, List.append_nil]
    refine (finds_next spells_equals).bind fun t ht => ?_
    rw [if_neg (ht.kind_ne (by decide)), if_pos ht.kind_eq]
    exact gives_initialRecord hx.2 hw

theorem gives_variableItem {x : Variable} (hx : x.IsNormal)
    (hmark : Parts ";" .semicolon w kind more) :
    variableItem.Gives ⟨v, x.words ++ w :: ws, b, rs⟩ ([x], more) ⟨w, ws, b, rs ++ x.remarks⟩ := by
  have hname : IsName x.name ∧ x.words = x.name :: x.words.tail := by
    cases x <;> exact ⟨hx.1, rfl⟩
  rw [hname.2]
  refine (finds_expect hname.1.spells).bind fun t ht => ?_
  rw [ht.text_eq]
  refine (gives_variableTail hx hmark).bind
    ((finds_current (hmark.spells spells_semicolon)).bind fun after hafter => ?_)
  rw [hafter.kind_eq]
  cases hmark <;> exact gives_pure _ _

theorem gives_variablesHead {type name : String} {isPrivate : Bool} (htype : IsType type)
    (hname : IsName name) (hw : Spells w kind text) (hne : kind ≠ .lparen)
    (hwords : flag "private" isPrivate ++ type :: name :: w :: ws = u :: us) :
    variablesHead.Gives ⟨u, us, b, rs⟩ (some isPrivate) ⟨type, name :: w :: ws, b, rs⟩ := by
  intro s h
  obtain ⟨hprivate, hat⟩ := h.unmodified hwords htype.spells (by decide)
  have hkind := (hat.shows htype.spells).kind_eq
  have hother : ¬(s.unmodified.token.kind ≠ .symbol ∨ s.unmodified.startsFunction = true) := by
    rw [hat.startsFunction_eq hname hw hne, hkind]
    decide
  refine ⟨s.unmodified, ?_, hat⟩
  rw [variablesHead_eq, if_neg fun hfails => hfails.2 hkind, if_neg hother, hprivate]

/-- Behind the name of a variable stands no parenthesis, so that it is not taken for a function. -/
theorem exists_second_word {d : VariablesDecl} (hd : d.IsNormal) :
    ∃ name w kind ws, listed (d.items.map Variable.words) ++ [";"] = name :: w :: ws ∧
      IsName name ∧ Spells w kind w ∧ kind ≠ .lparen := by
  obtain ⟨x, items, hitems⟩ := List.exists_cons_of_ne_nil hd.nonempty
  have hx := hd.items x (hitems ▸ List.mem_cons_self)
  obtain ⟨mark, words, hwords, hmark⟩ :=
    exists_listed_cons x.words (items.map Variable.words) ";" []
  rw [hitems, List.map_cons, hwords]
  cases x with
  | scalar name value =>
    cases value with
    | none =>
      rcases hmark with ⟨rfl, -⟩ | ⟨rfl, -⟩
      · exact ⟨name, ";", _, words, rfl, hx.1, spells_semicolon, by decide⟩
      · exact ⟨name, ",", _, words, rfl, hx.1, spells_comma, by decide⟩
    | some value => exact ⟨name, "=", _, _, rfl, hx.1, spells_equals, by decide⟩
  | array name size initializer =>
    exact ⟨name, "[", _, _, rfl, hx.1, spells_lbracket, by decide⟩
  | record name values => exact ⟨name, "=", _, _, rfl, hx.1, spells_equals, by decide⟩

/-- **Variables of one type are read**, with the comments in their initialisers. -/
theorem gives_variablesDeclaration {d : VariablesDecl} (hd : d.IsNormal)
    (hwords : d.words = u :: us) :
    variablesDeclaration.Gives ⟨u, us, b, rs⟩ (some (.variableGroup d))
      ⟨";", [], b, rs ++ d.items.flatMap Variable.remarks⟩ := by
  obtain ⟨name, w, kind, ws, hitems, hname, hw, hne⟩ := exists_second_word hd
  have hvariables : (gather variableItem consumes_variableItem).Gives
      ⟨d.type, listed (d.items.map Variable.words) ++ [";"], b, rs⟩ d.items
      ⟨";", [], b, rs ++ d.items.flatMap Variable.remarks⟩ :=
    gives_gather_listed consumes_variableItem hd.nonempty fun x hx _ _ _ hmark _ _ _ =>
      gives_variableItem (hd.items x hx) hmark
  rw [VariablesDecl.words, hitems] at hwords
  rw [hitems] at hvariables
  refine (gives_variablesHead hd.type hname hw hne hwords).bind
    ((finds_current hd.type.spells).bind fun t ht => hvariables.bind ?_)
  rw [typeText_eq hd.type ht]
  exact gives_pure _ _

end Grammar

end AcsOutline
