import AcsOutline.Proofs.Grammar.Agreement
import Mathlib.Data.List.Forall2
import Mathlib.Data.Option.Basic

/-!
# Readings of like scanners

Two scanners are alike, in a sense `S`, where their tokens are alike in a sense `T` and they go on
alike.  A reading that depends on nothing but the tokens comes to the same from both: to like
results, or to one fault at like tokens (`Reading.Like`).  This is kept by everything that readings
are put together with, so that it is shown of each reading of the grammar by the shape of its
definition.

What `T` and `S` are is left open here (`Walk`, `Likeness`).  They may relate the tokens of two
sources that differ in their layout, or each token and each scanner to itself, with what is known of
its place.
-/

namespace AcsOutline

/-- Two tokens that say the same; a line break may be written in several ways. -/
structure Token.Alike (t t' : Token) : Prop where
  kind_eq : t.kind = t'.kind
  isUnclosedString_eq : t.isUnclosedString = t'.isUnclosedString
  text_eq : t.kind ≠ .newline → t.text = t'.text

instance (t t' : Token) : Decidable (t.Alike t') :=
  decidable_of_iff (t.kind = t'.kind ∧ t.isUnclosedString = t'.isUnclosedString ∧
      (t.kind ≠ .newline → t.text = t'.text))
    ⟨fun h => ⟨h.1, h.2.1, h.2.2⟩, fun h => ⟨h.kind_eq, h.isUnclosedString_eq, h.text_eq⟩⟩

/-- Like tokens with one text. -/
def Token.Same (T : Token → Token → Prop) (t t' : Token) : Prop :=
  T t t' ∧ t.text = t'.text

/-- One cause of a fault, at like tokens. -/
inductive Fault.Like (T : Token → Token → Prop) : Fault → Fault → Prop where
  | endOfInput {t t' : Token} (h : T t t') : Like T (.endOfInput t.span) (.endOfInput t'.span)
  | endBefore (expected : String) {t t' : Token} (h : T t t') :
    Like T (.endBefore expected t.span) (.endBefore expected t'.span)
  | wrongToken (expected : String) {t t' : Token} (h : T t t') :
    Like T (.wrongToken expected t) (.wrongToken expected t')
  | openString {t t' : Token} (h : T t t') : Like T (.openString t.span) (.openString t'.span)
  | openBody (what : String) {t t' : Token} (h : T t t') :
    Like T (.openBody what t.span) (.openBody what t'.span)
  | repeatedModifier {t t' u u' : Token} (h : T t t') (h' : T u u') :
    Like T (.repeatedModifier t u) (.repeatedModifier t' u')
  | unknownStart {t t' : Token} (h : T t t') : Like T (.unknownStart t) (.unknownStart t')
  | unmatchedBrace {t t' : Token} (h : T t t') :
    Like T (.unmatchedBrace t.span) (.unmatchedBrace t'.span)

/-- Like scanners have like tokens and go on alike. -/
structure Walk (T : Token → Token → Prop) (S : Scanner → Scanner → Prop) : Prop where
  alike : ∀ {t t' : Token}, T t t' → t.Alike t'
  token : ∀ {s s' : Scanner}, S s s' → T s.token s'.token
  braces_eq : ∀ {s s' : Scanner}, S s s' → s.braces = s'.braces
  next : ∀ {s s' : Scanner}, S s s' → S s.next s'.next

/-- Like scanners outside of lines, `S`, which become like scanners in a line, `L`, where line breaks
are tokens, and come back from there. -/
structure Likeness (T : Token → Token → Prop) (S L : Scanner → Scanner → Prop) : Prop extends
    Walk T S where
  line : Walk T L
  text_next : ∀ {s s' : Scanner}, S s s' → s.next.token.text = s'.next.token.text
  breaks : ∀ {s s' : Scanner}, S s s' →
    L (s.withMask { s.mask with newlines := false }) (s'.withMask { s'.mask with newlines := false })
  back : ∀ {s s' u u' : Scanner}, S s s' → L u u' → S (u.withMask s.mask) (u'.withMask s'.mask)

section Diagonal

variable {T : Token → Prop} {S L : Scanner → Prop}

/-- Each scanner is like itself, with what is known of it and of its token, if that stays known as
the scanner goes on. -/
theorem Walk.diagonal (token : ∀ {s : Scanner}, S s → T s.token)
    (next : ∀ {s : Scanner}, S s → S s.next) :
    Walk (fun t t' => t = t' ∧ T t) fun s s' => s = s' ∧ S s where
  alike := by
    rintro t _ ⟨rfl, -⟩
    exact ⟨rfl, rfl, fun _ => rfl⟩
  token := by
    rintro s _ ⟨rfl, hs⟩
    exact ⟨rfl, token hs⟩
  braces_eq := by
    rintro s _ ⟨rfl, -⟩
    rfl
  next := by
    rintro s _ ⟨rfl, hs⟩
    exact ⟨rfl, next hs⟩

/-- What is known of a scanner may be something else in a line, as long as it can be told where the
line begins and where it ends. -/
theorem Likeness.diagonal (w : Walk (fun t t' => t = t' ∧ T t) fun s s' => s = s' ∧ S s)
    (l : Walk (fun t t' => t = t' ∧ T t) fun s s' => s = s' ∧ L s)
    (breaks : ∀ {s : Scanner}, S s → L (s.withMask { s.mask with newlines := false }))
    (back : ∀ {s u : Scanner}, S s → L u → S (u.withMask s.mask)) :
    Likeness (fun t t' => t = t' ∧ T t) (fun s s' => s = s' ∧ S s) fun s s' => s = s' ∧ L s where
  toWalk := w
  line := l
  text_next := by
    rintro s _ ⟨rfl, -⟩
    rfl
  breaks := by
    rintro s _ ⟨rfl, hs⟩
    exact ⟨rfl, breaks hs⟩
  back := by
    rintro s _ u _ ⟨rfl, hs⟩ ⟨rfl, hu⟩
    exact ⟨rfl, back hs hu⟩

end Diagonal

namespace Token

variable {t t' : Token}

theorem Alike.isWord_eq (h : t.Alike t') (word : String) : t.isWord word = t'.isWord word := by
  unfold isWord
  rw [h.kind_eq]
  by_cases hkind : t'.kind = .symbol
  · rw [h.text_eq (by rw [h.kind_eq, hkind]; decide)]
  · rw [beq_eq_false_iff_ne.2 hkind, Bool.false_and, Bool.false_and]

theorem Alike.same {T : Token → Token → Prop} (h : t.Alike t') (hT : T t t')
    (hkind : t.kind ≠ .newline) : Same T t t' :=
  ⟨hT, h.text_eq hkind⟩

theorem Alike.literal_eq (h : t.Alike t') (htext : t.text = t'.text) : t.literal = t'.literal := by
  rw [literal, literal, h.kind_eq, htext]

end Token

namespace Fault

variable {T : Token → Token → Prop} {t t' : Token}

/-- One cause has one code. -/
theorem Like.code_eq {fault fault' : Fault} (h : Like T fault fault') :
    fault.code = fault'.code := by
  cases h <;> rfl

theorem like_unexpected (hT : T t t') (h : t.Alike t') (expected : String) :
    Like T (unexpected expected t) (unexpected expected t') := by
  unfold unexpected
  rw [h.kind_eq, h.isUnclosedString_eq]
  split
  · exact .openString hT
  · split
    · exact .endBefore expected hT
    · exact .wrongToken expected hT

theorem like_noDeclaration (hT : T t t') (h : t.Alike t') :
    Like T (noDeclaration t) (noDeclaration t') := by
  unfold noDeclaration
  rw [h.isUnclosedString_eq]
  split
  · exact .openString hT
  · exact .unknownStart hT

end Fault

namespace Reading

variable {α α' β β' σ σ' : Type} {T : Token → Token → Prop} {S L : Scanner → Scanner → Prop}
  {R : α → α' → Prop} {Q : β → β' → Prop} {s s' : Scanner}

/-- Like results at like places, or one cause of a fault at like places. -/
def Result.Like (T : Token → Token → Prop) (S : Scanner → Scanner → Prop) (R : α → α' → Prop) :
    Result α → Result α' → Prop
  | .ok a u, .ok a' u' => R a a' ∧ S u u'
  | .error fault u, .error fault' u' => fault.Like T fault' ∧ S u u'
  | _, _ => False

/-- Two readings that come to the same from like scanners. -/
def Like (T : Token → Token → Prop) (S : Scanner → Scanner → Prop) (R : α → α' → Prop)
    (p : Reading α) (q : Reading α') : Prop :=
  ∀ ⦃s s' : Scanner⦄, S s s' → Result.Like T S R (p s) (q s')

/-! ## What readings are put together with -/

theorem like_pure {a : α} {a' : α'} (h : R a a') : Like T S R (pure a) (pure a') :=
  fun _ _ hs => ⟨h, hs⟩

theorem like_throw {fault fault' : Fault} (h : fault.Like T fault') :
    Like T S R (throw fault) (throw fault') :=
  fun _ _ hs => ⟨h, hs⟩

/-- What follows may rely on what was read before it. -/
theorem like_bind_at {p : Reading α} {q : Reading α'} {f : α → Reading β} {g : α' → Reading β'}
    (hp : Result.Like T S R (p s) (q s'))
    (hf : ∀ {a a' u u'}, p s = .ok a u → R a a' → S u u' → Result.Like T S Q (f a u) (g a' u')) :
    Result.Like T S Q ((p >>= f) s) ((q >>= g) s') := by
  show Result.Like T S Q (EStateM.bind p f s) (EStateM.bind q g s')
  unfold EStateM.bind
  cases hresult : p s <;> rw [hresult] at hp <;> cases hresult' : q s' <;> rw [hresult'] at hp
  · exact hf hresult hp.1 hp.2
  · exact hp.elim
  · exact hp.elim
  · exact hp

theorem Like.bind {p : Reading α} {q : Reading α'} {f : α → Reading β} {g : α' → Reading β'}
    (hp : Like T S R p q) (hf : ∀ a a', R a a' → Like T S Q (f a) (g a')) :
    Like T S Q (p >>= f) (q >>= g) :=
  fun _ _ hs => like_bind_at (hp hs) fun _ ha hu => hf _ _ ha hu

theorem Like.mono {R' : α → α' → Prop} {p : Reading α} {q : Reading α'} (hp : Like T S R p q)
    (hR : ∀ a a', R a a' → R' a a') : Like T S R' p q := by
  intro s s' hs
  have hrel := hp hs
  generalize p s = r at hrel ⊢
  generalize q s' = r' at hrel ⊢
  cases r <;> cases r'
  · exact ⟨hR _ _ hrel.1, hrel.2⟩
  · exact hrel.elim
  · exact hrel.elim
  · exact hrel

theorem Like.map {p : Reading α} {q : Reading α'} {f : α → β} {g : α' → β'}
    (hp : Like T S R p q) (hf : ∀ a a', R a a' → Q (f a) (g a')) :
    Like T S Q (f <$> p) (g <$> q) := by
  have hbind : Like T S Q (p >>= fun a => pure (f a)) (q >>= fun a => pure (g a)) :=
    hp.bind fun a a' h => like_pure (hf a a' h)
  exact hbind

theorem Like.ite {c c' : Prop} [Decidable c] [Decidable c'] {p₁ p₂ : Reading α}
    {q₁ q₂ : Reading α'} (hc : c ↔ c') (h₁ : c → c' → Like T S R p₁ q₁)
    (h₂ : ¬c → ¬c' → Like T S R p₂ q₂) :
    Like T S R (if c then p₁ else p₂) (if c' then q₁ else q₂) := by
  by_cases h : c
  · rw [if_pos h, if_pos (hc.1 h)]
    exact h₁ h (hc.1 h)
  · rw [if_neg h, if_neg (h ∘ hc.2)]
    exact h₂ h (h ∘ hc.2)

theorem like_settle {r : Except Fault α} {r' : Except Fault α'}
    (h : match r, r' with
      | .ok a, .ok a' => R a a'
      | .error fault, .error fault' => fault.Like T fault'
      | _, _ => False) : Like T S R (settle r) (settle r') := by
  intro s s' hs
  cases r <;> cases r'
  · exact ⟨h, hs⟩
  · exact h.elim
  · exact h.elim
  · exact ⟨h, hs⟩

/-- What is tried comes to the same, if it only goes forward. -/
theorem Like.tentatively {R : Option α → Option α' → Prop} {p : Reading (Option α)}
    {q : Reading (Option α')} (hp : Like T S R p q)
    (hR : ∀ {a a'}, R a a' → a.isSome = a'.isSome) (hforward : p.Forward)
    (hforward' : q.Forward) : Like T S R (tentatively p) (tentatively q) := by
  intro s s' hs
  have hrel := hp hs
  rw [tentatively_eq hforward, tentatively_eq hforward']
  generalize p s = r at hrel
  generalize q s' = r' at hrel
  rcases r with ⟨_ | a, u⟩ | ⟨fault, u⟩ <;> rcases r' with ⟨_ | a', u'⟩ | ⟨fault', u'⟩
  · exact ⟨hrel.1, hs⟩
  · exact nomatch hR hrel.1
  · exact hrel.elim
  · exact nomatch hR hrel.1
  · exact hrel
  · exact hrel.elim
  · exact hrel.elim
  · exact hrel.elim
  · exact ⟨hrel.1, hs⟩

/-! ## Repetition -/

/-- Like rounds: both ask for another one, or both are the last. -/
def Round.Like (J : σ → σ' → Prop) (Q : β → β' → Prop) : Round σ β → Round σ' β' → Prop
  | .again state, .again state' => J state state'
  | .done result, .done result' => Q result result'
  | _, _ => False

/-- **A repetition comes to the same if each of its rounds does.** -/
theorem like_loop {J : σ → σ' → Prop} {step : σ → Reading (Round σ β)}
    {step' : σ' → Reading (Round σ' β')} (h : Progresses step) (h' : Progresses step')
    (hstep : ∀ state state', J state state' →
      Like T S (Round.Like J Q) (step state) (step' state'))
    {state : σ} {state' : σ'} (hstate : J state state') :
    Like T S Q (loop step h state) (loop step' h' state') := by
  intro s s' hs
  fun_induction loop step h state s generalizing state' s' with
  | case1 state s next u e ih =>
    have hrel := hstep state state' hstate hs
    rw [loop_eq step' h']
    rw [e] at hrel
    rcases e' : step' state' s' with ⟨next' | result', u'⟩ | ⟨fault', u'⟩
    · rw [e'] at hrel
      exact ih hrel.1 hrel.2
    · rw [e'] at hrel
      exact hrel.1.elim
    · rw [e'] at hrel
      exact hrel.elim
  | case2 state s result u e =>
    have hrel := hstep state state' hstate hs
    rw [loop_eq step' h']
    rw [e] at hrel
    rcases e' : step' state' s' with ⟨next' | result', u'⟩ | ⟨fault', u'⟩
    · rw [e'] at hrel
      exact hrel.1.elim
    · rw [e'] at hrel
      exact hrel
    · rw [e'] at hrel
      exact hrel.elim
  | case3 state s fault u e =>
    have hrel := hstep state state' hstate hs
    rw [loop_eq step' h']
    rw [e] at hrel
    rcases e' : step' state' s' with ⟨next' | result', u'⟩ | ⟨fault', u'⟩
    · rw [e'] at hrel
      exact hrel.elim
    · rw [e'] at hrel
      exact hrel.elim
    · rw [e'] at hrel
      exact hrel

/-- What the rounds of a repetition find is alike. -/
theorem like_gather {round : Reading (List α × Bool)} {round' : Reading (List α' × Bool)}
    (h : round.Consumes) (h' : round'.Consumes)
    (hround : Like T S (fun x x' => List.Forall₂ R x.1 x'.1 ∧ x.2 = x'.2) round round') :
    Like T S (List.Forall₂ R) (gather round h) (gather round' h') := by
  refine like_loop (J := List.Forall₂ R) _ _ (fun found found' hfound => ?_) .nil
  refine hround.bind fun ⟨items, more⟩ ⟨items', more'⟩ ⟨hitems, hmore⟩ => ?_
  obtain rfl : more = more' := hmore
  have hall : List.Forall₂ R (items.reverse ++ found) (items'.reverse ++ found') :=
    List.rel_append (List.rel_reverse hitems) hfound
  cases more with
  | true => exact like_pure hall
  | false => exact like_pure (List.rel_reverse hall)

/-- Where each round finds the same, all of them do. -/
theorem like_gather_eq {round : Reading (List α × Bool)} (h : round.Consumes)
    (hround : Like T S Eq round round) : Like T S Eq (gather round h) (gather round h) := by
  have hall : Like T S (List.Forall₂ Eq) (gather round h) (gather round h) := by
    refine like_gather h h (hround.mono fun x x' hx => ?_)
    rw [hx, List.forall₂_eq_eq_eq]
    exact ⟨rfl, rfl⟩
  rwa [List.forall₂_eq_eq_eq] at hall

/-! ## Tokens -/

section Walk

variable (w : Walk T S)

include w

theorem like_current : Like T S T current current :=
  fun _ _ hs => ⟨w.token hs, hs⟩

theorem like_next : Like T S T next next :=
  fun _ _ hs => ⟨w.token (w.next hs), w.next hs⟩

theorem like_braceDepth : Like T S Eq braceDepth braceDepth :=
  fun _ _ hs => ⟨w.braces_eq hs, hs⟩

theorem like_advance : Like T S T advance advance := by
  rw [advance_eq]
  refine (like_next w).bind fun t t' h => .ite ?_ (fun _ _ => like_throw (.endOfInput h))
    fun _ _ => like_pure h
  rw [(w.alike h).kind_eq]

theorem like_unexpected {t t' : Token} (h : T t t') (expected : String) :
    Like T S R (unexpected expected t) (unexpected expected t') :=
  like_throw (Fault.like_unexpected h (w.alike h) expected)

/-- A token that is expected, and no line break, is found with one text. -/
theorem like_check {t t' : Token} (h : T t t') {kind : TokenKind} (hkind : kind ≠ .newline)
    (expected : String) :
    Like T S (Token.Same T) (check t kind expected) (check t' kind expected) := by
  unfold check
  refine .ite ?_ (fun hgood _ => ?_) fun _ _ => like_unexpected w h expected
  · rw [(w.alike h).kind_eq, (w.alike h).isUnclosedString_eq]
  · exact like_pure ((w.alike h).same h (hgood.1 ▸ hkind))

theorem like_expect {kind : TokenKind} (hkind : kind ≠ .newline) (expected : String) :
    Like T S (Token.Same T) (expect kind expected) (expect kind expected) :=
  (like_next w).bind fun _ _ h => like_check w h hkind expected

theorem like_peek_bind {f : Token → Reading α} {g : Token → Reading α'}
    (h : ∀ t t', T t t' → Like T S R (f t) (g t')) :
    Like T S R (peek >>= f) (peek >>= g) := by
  intro s s' hs
  rw [peek_bind, peek_bind]
  exact h _ _ (w.token (w.next hs)) hs

theorem like_peekTwo_bind {f : Token × Token → Reading α} {g : Token × Token → Reading α'}
    (h : ∀ t t' u u', T t t' → T u u' → Like T S R (f (t, u)) (g (t', u'))) :
    Like T S R (peekTwo >>= f) (peekTwo >>= g) := by
  intro s s' hs
  rw [peekTwo_bind, peekTwo_bind]
  exact h _ _ _ _ (w.token (w.next hs)) (w.token (w.next (w.next hs))) hs

end Walk

section Likeness

variable (l : Likeness T S L)

include l

/-- Outside of lines, the token that follows has one text. -/
theorem like_next_same : Like T S (Token.Same T) next next :=
  fun _ _ hs => ⟨⟨l.token (l.next hs), l.text_next hs⟩, l.next hs⟩

theorem like_advance_same : Like T S (Token.Same T) advance advance := by
  rw [advance_eq]
  refine (like_next_same l).bind fun t t' h => .ite ?_ (fun _ _ => like_throw (.endOfInput h.1))
    fun _ _ => like_pure h
  rw [(l.alike h.1).kind_eq]

end Likeness

end Reading

end AcsOutline
