import AcsOutline.Grammar.Basic
import AcsOutline.Grammar.Block
import AcsOutline.Proofs.Grammar.Agreement
import AcsOutline.Proofs.Scanner.Reached
import AcsOutline.Value.Reader

/-!
# Shared parts agree

The readings that declarations share, those of braced blocks and that of values agree on a part
of a source.
-/

namespace AcsOutline

namespace Text

theorem dropBytes_over (before cs : List Char) (n : Nat) :
    dropBytes (n + byteLength before) (before ++ cs) = dropBytes n cs := by
  induction before with
  | nil => rfl
  | cons c before ih =>
    have hpos : 0 < c.utf8Size := Char.utf8Size_pos c
    rw [List.cons_append, byteLength_cons, dropBytes, if_neg (by omega),
      show n + (c.utf8Size + byteLength before) - c.utf8Size = n + byteLength before by omega, ih]

theorem takeBytes_append_of_le {n : Nat} {cs : List Char} (h : n ≤ byteLength cs)
    (after : List Char) : takeBytes n (cs ++ after) = takeBytes n cs := by
  induction cs generalizing n with
  | nil =>
    have hn : n = 0 := Nat.le_zero.1 h
    subst hn
    cases after <;> simp [takeBytes]
  | cons c cs ih =>
    rw [byteLength_cons] at h
    rw [List.cons_append, takeBytes, takeBytes, ih (by omega)]

/-- A piece of a part is that piece of the whole text. -/
theorem slice_over {part : List Char} {start stop : Nat} (hstart : IsBoundary part start)
    (hstop : stop ≤ byteLength part) (before after : List Char) :
    slice (before ++ part ++ after) (start + byteLength before) (stop + byteLength before) =
      slice part start stop := by
  obtain ⟨x, y, rfl, rfl⟩ := hstart
  rw [byteLength_append] at hstop
  rw [slice, slice, List.append_assoc, dropBytes_over, Nat.add_sub_add_right, List.append_assoc,
    dropBytes_append, dropBytes_append, takeBytes_append_of_le (by omega)]

end Text

namespace Grammar

open Reading

variable {α : Type} {m : Shift}

theorem agrees_takeName : Agrees m id takeName takeName :=
  agrees_current.bind fun t => .ite Iff.rfl
    (agrees_next.bind fun _ => agrees_pure (some t.text)) (agrees_pure none)

theorem agrees_bracketSize : Agrees m id bracketSize bracketSize :=
  agrees_advance.bind fun t => .ite Iff.rfl (agrees_pure none)
    ((agrees_expect .rbracket "`]`").bind fun _ => agrees_pure (some t.text))

theorem agrees_parameter {tail : String → Reading α}
    (h : ∀ type, Agrees m id (tail type) (tail type)) :
    Agrees m id (parameter tail) (parameter tail) :=
  (agrees_expect _ _).bind fun type => (h (typeText type)).bind fun p =>
    agrees_current.bind fun after => by
      simp only [Token.kind_move]
      split
      · exact agrees_pure ([p], false)
      · exact agrees_pure ([p], true)
      · exact agrees_unexpected _ after

theorem agrees_takeSemicolon : Agrees m id takeSemicolon takeSemicolon := by
  refine agrees_peek (c := ';') (by decide)
    (agrees_advance.bind fun _ => agrees_pure ()) (agrees_pure ()) fun _ => ?_
  exact readsNext_advance.takes_bind fun _ => onward_pure ()

theorem agrees_takeEmptyParameters :
    Agrees m id takeEmptyParameters takeEmptyParameters := by
  refine agrees_peekTwo (c := ')') (k := .rparen) (by decide)
    (d := fun first second => first.isWord "void" ∧ second.kind = .rparen) ?_
    (fun _ _ => Iff.rfl) (fun _ _ => rfl) (agrees_next.bind fun _ => agrees_pure true)
    (agrees_next.bind fun _ => agrees_next.bind fun _ => agrees_pure true) (agrees_pure false)
    (fun _ => readsNext_next.takes_bind fun _ => onward_pure true) fun _ =>
      readsNext_next.takes_bind fun _ => readsNext_next.takes_bind fun _ => onward_pure true
  rintro _ second ⟨-, hsecond⟩
  exact ⟨')', by rw [hsecond]; decide⟩

theorem agrees_parameters {tail : String → Reading α} (hw : ∀ type, (tail type).Within)
    (h : ∀ type, Agrees m id (tail type) (tail type)) :
    Agrees m id (parameters tail hw) (parameters tail hw) :=
  agrees_takeEmptyParameters.bind fun _ => .ite Iff.rfl (agrees_pure [])
    (agrees_gather (consumes_parameter hw) (agrees_parameter h))

/-! ## Blocks -/

theorem agrees_skipTo (depth : Int) (what : String) (opening : Span) :
    Agrees m id (skipTo (depth + m.braces) what (opening.move m.move))
      (skipTo depth what opening) := by
  refine agrees_loop (k := id) _ _ (fun _ => ?_) ()
  refine agrees_braceDepth.bind fun braces => .ite (by omega) (agrees_pure (Round.done ())) ?_
  exact agrees_next.bind fun t => .ite Iff.rfl (agrees_throw (.openBody what opening))
    (agrees_pure (Round.again ()))

/-- The same piece of the source, if it lies in the part that both scanners read. -/
theorem relates_sourceText {s t : Scanner} (hst : s.Mirrors m t) {opening closing : Token}
    (hopening : opening.LiesIn m.part) (hclosing : closing.LiesIn m.part) :
    m.Relates id (sourceText (opening.move m.move).span.start (closing.move m.move).span.stop s)
      (sourceText opening.span.start closing.span.stop t) := by
  intro _
  refine ⟨_, t, rfl, ?_, hst⟩
  rw [id, hst.whole_eq, hst.part_eq]
  exact congrArg String.ofList
    (Text.slice_over hopening.start_boundary hclosing.stop_le m.before m.after)

/-- What the initialiser of an array reads after its opening brace. -/
def arrayInitializerRest (depth : Int) (opening : Token) : Reading String := do
  skipTo depth "array initializer" opening.span
  let closing ← current
  sourceText opening.span.start closing.span.stop

theorem onward_sourceText (start stop : Nat) : (sourceText start stop).Onward := by
  rintro s _ _ ⟨⟩
  exact List.suffix_refl _

theorem onward_skipTo (depth : Int) (what : String) (opening : Span) :
    (skipTo depth what opening).Onward :=
  onward_loop _ (fun _ => onward_braceDepth.bind fun _ => .ite (onward_pure _)
    (onward_next.bind fun _ => .ite (onward_throw _) (onward_pure _))) ()

theorem onward_arrayInitializerRest (depth : Int) (opening : Token) :
    (arrayInitializerRest depth opening).Onward :=
  (onward_skipTo _ _ _).bind fun _ => onward_current.bind fun _ => onward_sourceText _ _

theorem agrees_arrayInitializer : Agrees m id arrayInitializer arrayInitializer := by
  refine agrees_braceDepth.bind fun depth => ?_
  have hbrace := agrees_expect (m := m) .lbrace "`\x7b` to open the array initializer"
  show Agrees m id (_ >>= arrayInitializerRest (depth + m.braces))
    (_ >>= arrayInitializerRest depth)
  constructor
  · exact fun hafter => (hbrace.onward hafter).bind (onward_arrayInitializerRest _)
  intro s t hst
  refine relates_bind (hbrace.relates hst) (fun _ => onward_arrayInitializerRest _) ?_
  intro opening u v hopening huv
  -- the token that was read is the current one, and so it lies in the part
  have hin : opening.LiesIn m.part := by
    obtain ⟨rfl, rfl⟩ := readsNext_expect _ _ hopening
    exact huv.token_liesIn
  refine relates_bind ((agrees_skipTo depth "array initializer" opening.span).relates huv)
    (fun _ _ => onward_current.bind fun _ => onward_sourceText _ _) ?_
  intro _ u' v' _ huv'
  refine relates_bind (agrees_current.relates huv') (fun _ _ => onward_sourceText _ _) ?_
  rintro closing u'' v'' ⟨⟩ huv''
  exact relates_sourceText huv'' hin huv''.token_liesIn

theorem agrees_recordRound (depth : Int) (opening : Span) (found : List String) :
    Agrees m (Round.move id id) (recordRound (depth + m.braces) (opening.move m.move) found)
      (recordRound depth opening found) :=
  agrees_next.bind fun t => .ite Iff.rfl
    ((agrees_skipTo depth "struct initializer" opening).bind fun _ =>
      agrees_pure (Round.done found.reverse))
    (agrees_braceDepth.bind fun braces => .ite (by omega) (agrees_pure (Round.done found.reverse))
      (.ite Iff.rfl (agrees_pure (Round.again found))
        (agrees_pure (Round.again (t.literal :: found)))))

theorem agrees_recordInitializer : Agrees m id recordInitializer recordInitializer :=
  agrees_braceDepth.bind fun depth => agrees_advance.bind fun opening =>
    agrees_loop (k := id) _ _ (agrees_recordRound depth opening.span) []

theorem takes_recordRound (depth : Int) (opening : Span) (found : List String) :
    (recordRound depth opening found).Takes 1 :=
  readsNext_next.takes_bind fun _ => .ite
    ((onward_skipTo _ _ _).bind fun _ => onward_pure _)
    (onward_braceDepth.bind fun _ =>
      .ite (onward_pure _) (.ite (onward_pure _) (onward_pure _)))

theorem takes_recordInitializer : recordInitializer.Takes 1 := by
  intro s a u h
  obtain ⟨depth, _, hdepth, h⟩ := bind_eq_ok.1 h
  cases hdepth
  exact readsNext_advance.takes_bind (fun _ =>
    onward_loop _ (fun found => (takes_recordRound _ _ found).onward) []) h

end Grammar

/-! ## Values -/

namespace Value

open Reading

variable {m : Shift}

theorem agrees_readPiece (n : Nest) :
    Agrees m (Round.move id id) (readPiece n) (readPiece n) :=
  agrees_current.bind fun t => .ite Iff.rfl (agrees_pure (Round.done (Value.mk n.finish)))
    (.ite Iff.rfl (agrees_advance.bind fun _ => agrees_pure (Round.again n.openGroup))
      (.ite Iff.rfl (agrees_next.bind fun _ => agrees_pure (Round.again n.closeGroup))
        (agrees_next.bind fun _ => agrees_pure (Round.again (n.push (.leaf t.kind t.text))))))

theorem agrees_read : Agrees m id read read :=
  agrees_loop (k := id) _ _ agrees_readPiece .empty

end Value

end AcsOutline
