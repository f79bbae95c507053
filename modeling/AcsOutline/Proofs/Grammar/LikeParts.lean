import AcsOutline.Proofs.Grammar.Basic
import AcsOutline.Proofs.Grammar.Likeness

/-!
# Shared parts of like scanners

What declarations share, braced blocks and values come to the same from like scanners.  Only the
initialiser of an array is kept as it is written, so that nothing is said of its text.
-/

namespace AcsOutline

variable {α α' : Type} {T : Token → Token → Prop} {S L : Scanner → Scanner → Prop}
  {R : α → α' → Prop}

theorem typeText_eq_of_same {t t' : Token} (h : Token.Same T t t') :
    Grammar.typeText t = Grammar.typeText t' := by
  rw [Grammar.typeText, Grammar.typeText, h.2]

namespace Value

open Reading

/-- A value consists of its tokens alone. -/
theorem like_readPiece (w : Walk T S) (n : Nest) :
    Like T S (Round.Like Eq Eq) (readPiece n) (readPiece n) := by
  refine (like_current w).bind fun t t' h => ?_
  have hkind := (w.alike h).kind_eq
  refine .ite (by rw [hkind]) (fun _ _ => like_pure rfl) fun hends _ => ?_
  refine .ite (by rw [hkind]) (fun _ _ => (like_advance w).bind fun _ _ _ => like_pure rfl)
    fun _ _ => ?_
  refine .ite (by rw [hkind]) (fun _ _ => (like_next w).bind fun _ _ _ => like_pure rfl)
    fun _ _ => ?_
  have htext : t.text = t'.text := (w.alike h).text_eq fun hbreak => hends (by rw [hbreak]; rfl)
  rw [hkind, htext]
  exact (like_next w).bind fun _ _ _ => like_pure rfl

theorem like_read (w : Walk T S) : Like T S Eq read read :=
  like_loop _ _ (fun n _ hn => hn ▸ like_readPiece w n) rfl

end Value

namespace Grammar

open Reading

section Walk

variable (w : Walk T S)

include w

theorem like_accessModifier : Like T S Eq accessModifier accessModifier :=
  (like_current w).bind fun _ _ h => .ite (by rw [(w.alike h).kind_eq])
    (fun _ _ => (like_next w).bind fun _ _ _ => like_pure rfl) fun _ _ => like_pure rfl

theorem like_startsFunction : Like T S Eq startsFunction startsFunction :=
  (like_current w).bind fun _ _ h => like_peekTwo_bind w fun _ _ _ _ h' h'' => by
    simp only [(w.alike h).kind_eq, (w.alike h').kind_eq, (w.alike h'').kind_eq]
    exact like_pure rfl

theorem like_takeName : Like T S Eq takeName takeName := by
  refine (like_current w).bind fun t t' h => ?_
  refine .ite (by rw [(w.alike h).kind_eq]) (fun hname _ => ?_) fun _ _ => like_pure rfl
  rw [(w.alike h).text_eq (by rw [hname]; decide)]
  exact (like_next w).bind fun _ _ _ => like_pure rfl

theorem like_takeSemicolon : Like T S Eq takeSemicolon takeSemicolon :=
  like_peek_bind w fun _ _ h => .ite (by rw [(w.alike h).kind_eq])
    (fun _ _ => (like_advance w).bind fun _ _ _ => like_pure rfl) fun _ _ => like_pure rfl

theorem like_takeEmptyParameters : Like T S Eq takeEmptyParameters takeEmptyParameters := by
  refine like_peekTwo_bind w fun first first' second second' h h' => ?_
  refine .ite (by rw [(w.alike h).kind_eq])
    (fun _ _ => (like_next w).bind fun _ _ _ => like_pure rfl) fun _ _ => ?_
  refine .ite (by rw [(w.alike h).isWord_eq, (w.alike h').kind_eq])
    (fun _ _ => ?_) fun _ _ => like_pure rfl
  exact (like_next w).bind fun _ _ _ => (like_next w).bind fun _ _ _ => like_pure rfl

/-- What follows a parameter, or a part of a list that ends in the same way. -/
theorem like_parameter {tail : String → Reading α} {tail' : String → Reading α'}
    (h : ∀ type, Like T S R (tail type) (tail' type)) :
    Like T S (fun x x' => List.Forall₂ R x.1 x'.1 ∧ x.2 = x'.2) (parameter tail)
      (parameter tail') := by
  refine (like_expect w (by decide) _).bind fun type type' htype => ?_
  rw [typeText_eq_of_same htype]
  refine (h _).bind fun p p' hp => (like_current w).bind fun after after' hafter => ?_
  rw [(w.alike hafter).kind_eq]
  split
  · exact like_pure ⟨.cons hp .nil, rfl⟩
  · exact like_pure ⟨.cons hp .nil, rfl⟩
  · exact like_unexpected w hafter _

theorem like_parameters {tail : String → Reading α} (hw : ∀ type, (tail type).Within)
    (h : ∀ type, Like T S Eq (tail type) (tail type)) :
    Like T S Eq (parameters tail hw) (parameters tail hw) := by
  refine (like_takeEmptyParameters w).bind fun isEmpty isEmpty' hempty => ?_
  subst hempty
  refine .ite Iff.rfl (fun _ _ => like_pure rfl) fun _ _ => ?_
  refine like_gather_eq (consumes_parameter hw) ((like_parameter w h).mono ?_)
  rintro ⟨items, more⟩ ⟨items', more'⟩ ⟨hitems, hmore⟩
  rw [List.forall₂_eq_eq_eq] at hitems
  exact Prod.ext hitems hmore

/-! ## Blocks -/

theorem like_skipTo (depth : Int) (what : String) {opening opening' : Token}
    (h : T opening opening') :
    Like T S Eq (skipTo depth what opening.span) (skipTo depth what opening'.span) := by
  refine like_loop (J := Eq) _ _ (fun _ _ _ => ?_) rfl
  refine (like_braceDepth w).bind fun depth' depth'' hdepth => ?_
  subst hdepth
  refine .ite Iff.rfl (fun _ _ => like_pure rfl) fun _ _ => ?_
  exact (like_next w).bind fun t t' ht => .ite (by rw [(w.alike ht).kind_eq])
    (fun _ _ => like_throw (.openBody what h)) fun _ _ => like_pure rfl

theorem like_arrayInitializer :
    Like T S (fun _ _ => True) arrayInitializer arrayInitializer := by
  refine (like_braceDepth w).bind fun depth _ hdepth => ?_
  subst hdepth
  exact (like_expect w (by decide) _).bind fun _ _ h => (like_skipTo w depth _ h.1).bind fun _ _ _ =>
    (like_current w).bind fun _ _ _ => fun _ _ hs => ⟨trivial, hs⟩

end Walk

section Likeness

variable (l : Likeness T S L)

include l

theorem like_bracketSize : Like T S Eq bracketSize bracketSize := by
  refine (like_advance_same l).bind fun size size' h => ?_
  refine .ite (by rw [(l.alike h.1).kind_eq]) (fun _ _ => like_pure rfl) fun _ _ => ?_
  rw [h.2]
  exact (like_expect l.toWalk (by decide) _).bind fun _ _ _ => like_pure rfl

theorem like_recordRound (depth : Int) {opening opening' : Token} (h : T opening opening')
    (found : List String) :
    Like T S (Round.Like Eq Eq) (recordRound depth opening.span found)
      (recordRound depth opening'.span found) := by
  refine (like_next_same l).bind fun t t' ht => ?_
  have hkind := (l.alike ht.1).kind_eq
  refine .ite (by rw [hkind]) (fun _ _ => ?_) fun _ _ => ?_
  · exact (like_skipTo l.toWalk depth _ h).bind fun _ _ _ => like_pure rfl
  refine (like_braceDepth l.toWalk).bind fun braces braces' hbraces => ?_
  subst hbraces
  refine .ite Iff.rfl (fun _ _ => like_pure rfl) fun _ _ => ?_
  refine .ite (by rw [hkind]) (fun _ _ => like_pure rfl) fun _ _ => ?_
  rw [(l.alike ht.1).literal_eq ht.2]
  exact like_pure rfl

theorem like_recordInitializer : Like T S Eq recordInitializer recordInitializer := by
  refine (like_braceDepth l.toWalk).bind fun depth depth' hdepth => ?_
  subst hdepth
  refine (like_advance l.toWalk).bind fun opening opening' h => ?_
  exact like_loop _ _ (fun found found' hfound => hfound ▸ like_recordRound l depth h found) rfl

end Likeness

end Grammar

end AcsOutline
