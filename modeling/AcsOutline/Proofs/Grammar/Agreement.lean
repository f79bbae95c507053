import AcsOutline.Proofs.Scanner.Mirror
import AcsOutline.Proofs.Value.Run

/-!
# Readings that agree

Two readings agree on a part of a source when the one that reads the whole source and the one
that reads the part come to the same end: to the same result, up to the places in it, and again
to the same place.  Where text follows the part, this is only asked for results that are reached
inside of it (`Shift.Relates`).

Agreement is kept by everything that readings are put together with, so that it is shown of each
reading of the grammar by the shape of its definition.
-/

namespace AcsOutline

/-- What is left after further tokens is an end of what was left before them. -/
theorem Scanner.rest_ahead_suffix (s : Scanner) (n : Nat) : (s.ahead n).rest <:+ s.rest := by
  induction n generalizing s with
  | zero => exact List.suffix_refl _
  | succ n ih => exact (ih s.next).trans s.rest_next_suffix

namespace Shift

variable {α β : Type} (m : Shift)

/-- A result from the whole source and one from the part say the same: `g` moves a value of the
part to its place in the source.  Nothing is asked of a success behind the part, and of a failure
only where the part is all that is left to read. -/
def Relates (g : α → α) : Reading.Result α → Reading.Result α → Prop
  | .ok a u, r => m.after <:+ u.rest → ∃ b v, r = .ok b v ∧ a = g b ∧ Scanner.Mirrors m u v
  | .error fault u, r => m.after = [] →
      ∃ fault' v, r = .error fault' v ∧ fault = fault'.move m.move ∧ Scanner.Mirrors m u v

/-- A way to move values that leaves them alone where text follows the part. -/
class Moves (g : α → α) : Prop where
  eq_self : m.after ≠ [] → ∀ a, g a = a

instance : m.Moves (id : α → α) :=
  ⟨fun _ _ => rfl⟩

theorem move_eq_of_after (h : m.after ≠ []) : m.move = .over [] := by
  rcases m.at_end with hafter | ⟨hbefore, -⟩
  · exact absurd hafter h
  · rw [move, hbefore]

instance : m.Moves (Token.move m.move) where
  eq_self h t := by
    rw [m.move_eq_of_after h, Token.move_over_nil]

instance : m.Moves (· + m.braces) where
  eq_self h n := by
    rcases m.at_end with hafter | ⟨-, hbraces⟩
    · exact absurd hafter h
    · simp only [hbraces, Int.add_zero]

instance (g : α → α) (g' : β → β) [m.Moves g] [m.Moves g'] : m.Moves (Prod.map g g') where
  eq_self h p := Prod.ext (Moves.eq_self h p.1) (Moves.eq_self h p.2)

end Shift

namespace Reading

variable {α β σ : Type} {m : Shift} {g : α → α} {g' : β → β}

/-! ## Going on -/

/-- A success takes at least a number of tokens: what it leaves to read was to be read after
them. -/
def Takes (n : Nat) (p : Reading α) : Prop :=
  ∀ ⦃s a u⦄, p s = .ok a u → u.rest <:+ (s.ahead n).rest

/-- What a success leaves to read was to be read before. -/
abbrev Onward (p : Reading α) : Prop :=
  p.Takes 0

theorem Takes.bind {p : Reading α} {f : α → Reading β} {n : Nat} (hp : p.Takes n)
    (hf : ∀ a, (f a).Onward) : (p >>= f).Takes n := by
  intro s b u h
  obtain ⟨a, v, h₁, h₂⟩ := bind_eq_ok.1 h
  exact (hf a h₂).trans (hp h₁)

theorem Takes.onward {p : Reading α} {n : Nat} (hp : p.Takes n) : p.Onward := by
  intro s a u h
  exact (hp h).trans (s.rest_ahead_suffix n)

theorem Takes.map {p : Reading α} {n : Nat} (hp : p.Takes n) {f : α → β} :
    (f <$> p).Takes n := by
  intro s b u h
  obtain ⟨a, h', -⟩ := map_eq_ok.1 h
  exact hp h'

theorem Takes.ite {c : Prop} [Decidable c] {p q : Reading α} {n : Nat} (hp : p.Takes n)
    (hq : q.Takes n) : (if c then p else q).Takes n := by
  split
  · exact hp
  · exact hq

theorem onward_pure (a : α) : (pure a : Reading α).Onward := by
  intro s b u h
  obtain ⟨-, rfl⟩ := pure_eq_ok.1 h
  exact List.suffix_refl _

theorem onward_current : current.Onward := by
  rintro s _ _ ⟨⟩
  exact List.suffix_refl _

theorem onward_next : next.Onward := by
  rintro s _ _ ⟨⟩
  exact s.rest_next_suffix

theorem onward_braceDepth : braceDepth.Onward := by
  rintro s _ _ ⟨⟩
  exact List.suffix_refl _

theorem onward_throw (fault : Fault) : (throw fault : Reading α).Onward :=
  fun _ _ _ h => nomatch h

/-- A success is the token that follows, which is read. -/
def ReadsNext (p : Reading Token) : Prop :=
  ∀ ⦃s t u⦄, p s = .ok t u → t = s.next.token ∧ u = s.next

theorem readsNext_next : next.ReadsNext := by
  rintro s _ _ ⟨⟩
  exact ⟨rfl, rfl⟩

theorem readsNext_advance : advance.ReadsNext := by
  intro s t u h
  unfold advance at h
  split at h
  · cases h
  · cases h
    exact ⟨rfl, rfl⟩

theorem check_eq_ok {t a : Token} {kind : TokenKind} {expected : String} {s u : Scanner} :
    check t kind expected s = .ok a u ↔
      (t.kind = kind ∧ t.isUnclosedString = false) ∧ t = a ∧ s = u := by
  by_cases h : t.kind = kind ∧ !t.isUnclosedString
  · rw [check, if_pos h, pure_eq_ok]
    simpa using fun _ _ => h
  · rw [check, if_neg h]
    constructor
    · intro e
      cases e
    · rintro ⟨hgood, -⟩
      simp [hgood] at h

theorem readsNext_expect (kind : TokenKind) (expected : String) :
    (expect kind expected).ReadsNext := by
  intro s t u h
  obtain ⟨-, rfl, rfl⟩ := check_eq_ok.1 (show check s.next.token kind expected s.next = .ok t u from h)
  exact ⟨rfl, rfl⟩

theorem ReadsNext.takes_bind {p : Reading Token} {f : Token → Reading α} {n : Nat}
    (hp : p.ReadsNext) (hf : ∀ t, (f t).Takes n) : (p >>= f).Takes (n + 1) := by
  intro s b u h
  obtain ⟨t, v, h₁, h₂⟩ := bind_eq_ok.1 h
  obtain ⟨-, rfl⟩ := hp h₁
  exact hf t h₂

theorem onward_loop {step : σ → Reading (Round σ β)} (h : Progresses step)
    (hstep : ∀ state, (step state).Onward) (state : σ) : (loop step h state).Onward := by
  intro s b u hu
  fun_induction loop step h state s with
  | case1 state s state' v e ih => exact (ih hu).trans (hstep state e)
  | case2 state s result v e =>
    cases hu
    exact hstep state e
  | case3 => cases hu

/-- A repetition takes what its first round takes. -/
theorem takes_loop {n : Nat} {step : σ → Reading (Round σ β)} (h : Progresses step)
    (hstep : ∀ state, (step state).Takes n) (state : σ) : (loop step h state).Takes n := by
  intro s b u hu
  rw [loop_eq] at hu
  split at hu
  next state' v e =>
    exact (onward_loop h (fun state => (hstep state).onward) state' hu).trans (hstep state e)
  next e =>
    cases hu
    exact hstep state e
  next => cases hu

theorem takes_gather {n : Nat} {round : Reading (List α × Bool)} (h : round.Consumes)
    (hround : round.Takes n) : (gather round h).Takes n :=
  takes_loop _ (fun _ => hround.bind fun _ => onward_pure _) []

/-! ## Agreement -/

/-- A reading of the whole source and one of the part agree. -/
structure Agrees (m : Shift) (g : α → α) (p q : Reading α) : Prop where
  onward : m.after ≠ [] → p.Onward
  relates : ∀ ⦃s t⦄, Scanner.Mirrors m s t → m.Relates g (p s) (q t)

theorem agrees_pure (a : α) : Agrees m g (pure (g a)) (pure a) where
  onward _ := onward_pure (g a)
  relates _ _ h _ := ⟨a, _, rfl, rfl, h⟩

theorem agrees_current : Agrees m (Token.move m.move) current current where
  onward _ := onward_current
  relates _ _ h _ := ⟨_, _, rfl, h.token_eq, h⟩

theorem agrees_braceDepth : Agrees m (· + m.braces) braceDepth braceDepth where
  onward _ := onward_braceDepth
  relates _ _ h _ := ⟨_, _, rfl, h.braces_eq, h⟩

theorem agrees_next : Agrees m (Token.move m.move) next next where
  onward _ := onward_next
  relates _ _ h hin := ⟨_, _, rfl, (h.next hin).token_eq, h.next hin⟩

theorem agrees_throw (fault : Fault) : Agrees m g (throw (fault.move m.move)) (throw fault) where
  onward _ := onward_throw _
  relates _ _ h _ := ⟨fault, _, rfl, rfl, h⟩

/-- What goes on from a place ahead agrees, if it agrees in case that place is in the part. -/
theorem relates_of_inside {r r' : Result α} {u : Scanner}
    (honward : m.after ≠ [] → ∀ ⦃a w⦄, r = .ok a w → w.rest <:+ u.rest)
    (h : m.after <:+ u.rest → m.Relates g r r') : m.Relates g r r' := by
  have hnil : m.after = [] → m.after <:+ u.rest := by
    intro hafter
    rw [hafter]
    exact List.nil_suffix
  cases r with
  | ok a w =>
    intro hin
    by_cases hafter : m.after = []
    · exact h (hnil hafter) hin
    · exact h (hin.trans (honward hafter rfl)) hin
  | error fault w =>
    intro hafter
    exact h (hnil hafter) hafter

/-- One reading after the other, from two given places. -/
theorem relates_bind {p q : Reading α} {f f' : α → Reading β} {s t : Scanner}
    (hp : m.Relates g (p s) (q t))
    (hfar : m.after ≠ [] → ∀ a, (f a).Onward)
    (hf : ∀ ⦃a u v⦄, q t = .ok a v → Scanner.Mirrors m u v →
      m.Relates g' (f (g a) u) (f' a v)) :
    m.Relates g' ((p >>= f) s) ((q >>= f') t) := by
  change m.Relates g' (EStateM.bind p f s) (EStateM.bind q f' t)
  unfold EStateM.bind
  cases e : p s with
  | error fault u =>
    rw [e] at hp
    intro hafter
    obtain ⟨fault', v, hq, hfault, huv⟩ := hp hafter
    rw [hq]
    exact ⟨fault', v, rfl, hfault, huv⟩
  | ok a u =>
    rw [e] at hp
    -- what the second reading finds in the part, it finds after the first one did
    refine relates_of_inside (u := u) (fun hafter _ _ e' => hfar hafter a e') fun hin => ?_
    obtain ⟨b, v, hq, rfl, huv⟩ := hp hin
    rw [hq]
    exact hf hq huv

/-- One reading after the other. -/
theorem Agrees.bind [m.Moves g] {p q : Reading α} {f f' : α → Reading β} (hp : Agrees m g p q)
    (hf : ∀ a, Agrees m g' (f (g a)) (f' a)) : Agrees m g' (p >>= f) (q >>= f') := by
  have hfar : m.after ≠ [] → ∀ a, (f a).Onward := by
    intro hafter a
    have hfa := (hf a).onward hafter
    rwa [Shift.Moves.eq_self (g := g) hafter a] at hfa
  constructor
  · intro hafter
    exact (hp.onward hafter).bind (hfar hafter)
  · intro s t hst
    exact relates_bind (hp.relates hst) hfar fun a _ _ _ huv => (hf a).relates huv

theorem Agrees.map [m.Moves g] {p q : Reading α} (hp : Agrees m g p q) {f : α → β}
    (hf : ∀ a, f (g a) = g' (f a)) : Agrees m g' (f <$> p) (f <$> q) := by
  have hbind : Agrees m g' (p >>= fun a => pure (f a)) (q >>= fun a => pure (f a)) :=
    hp.bind fun a => by
      rw [hf]
      exact agrees_pure (f a)
  exact hbind

theorem Agrees.ite {c c' : Prop} [Decidable c] [Decidable c'] {p p' q q' : Reading α}
    (hc : c ↔ c') (hp : Agrees m g p q) (hp' : Agrees m g p' q') :
    Agrees m g (if c then p else p') (if c' then q else q') := by
  by_cases h : c
  · rwa [if_pos h, if_pos (hc.1 h)]
  · rwa [if_neg h, if_neg (h ∘ hc.2)]

theorem agrees_unexpected (expected : String) (t : Token) :
    Agrees m g (unexpected expected (t.move m.move)) (unexpected expected t) := by
  rw [unexpected, ← Fault.move_unexpected]
  exact agrees_throw _

theorem advance_eq :
    advance = next >>= fun t => if t.kind = .eof then throw (.endOfInput t.span) else pure t := by
  funext s
  show _ = (if s.next.token.kind = .eof then throw (.endOfInput s.next.token.span)
    else pure s.next.token : Reading Token) s.next
  unfold advance
  split <;> rfl

theorem agrees_advance : Agrees m (Token.move m.move) advance advance := by
  rw [advance_eq]
  exact agrees_next.bind fun t => .ite Iff.rfl (agrees_throw (.endOfInput t.span)) (agrees_pure t)

theorem agrees_check (t : Token) (kind : TokenKind) (expected : String) :
    Agrees m (Token.move m.move) (check (t.move m.move) kind expected) (check t kind expected) :=
  .ite (by simp) (agrees_pure t) (agrees_unexpected expected t)

theorem agrees_expect (kind : TokenKind) (expected : String) :
    Agrees m (Token.move m.move) (expect kind expected) (expect kind expected) :=
  agrees_next.bind fun t => agrees_check t kind expected

theorem agrees_settle_ok (a : α) : Agrees m g (settle (.ok (g a))) (settle (.ok a)) :=
  agrees_pure a

theorem agrees_settle_error (fault : Fault) :
    Agrees m g (settle (.error (fault.move m.move))) (settle (.error fault)) :=
  agrees_throw fault

theorem peek_bind (f : Token → Reading α) (s : Scanner) :
    (peek >>= f) s = f s.next.token s :=
  bind_of_ok (peek_eq s) f

theorem peekTwo_bind (f : Token × Token → Reading α) (s : Scanner) :
    (peekTwo >>= f) s = f (s.next.token, s.next.next.token) s :=
  bind_of_ok (peekTwo_eq s) f

/-- Readings that depend on whether a punctuation character follows agree, if the one for that
character takes it. -/
theorem agrees_peek {k : TokenKind} {c : Char} (hc : (c, k) ∈ Lexeme.punctuation)
    {p p' q q' : Reading α} (hp : Agrees m g p q) (hp' : Agrees m g p' q')
    (htakes : m.after ≠ [] → p.Takes 1) :
    Agrees m g (do if (← peek).kind = k then p else p')
      (do if (← peek).kind = k then q else q') where
  onward hafter s a u h := by
    rw [peek_bind] at h
    split at h
    · exact hp.onward hafter h
    · exact hp'.onward hafter h
  relates s t hst := by
    rw [peek_bind, peek_bind]
    by_cases hs : s.next.token.kind = k
    · rw [if_pos hs]
      refine relates_of_inside (u := s.next) (fun hafter _ _ e => htakes hafter e) fun hin => ?_
      have ht : t.next.token.kind = k := by
        rw [← hs, (hst.next hin).token_eq, Token.kind_move]
      rw [if_pos ht]
      exact hp.relates hst
    · have ht : ¬t.next.token.kind = k := fun ht => hs (hst.kind_next ht hc)
      rw [if_neg hs, if_neg ht]
      exact hp'.relates hst

/-- Readings that depend on the two tokens that follow agree in the same way, if the second
choice is made on account of a punctuation character behind a token. -/
theorem agrees_peekTwo {k : TokenKind} {c : Char} (hc : (c, k) ∈ Lexeme.punctuation)
    {d : Token → Token → Prop} [∀ first second, Decidable (d first second)]
    (hd : ∀ first second, d first second → ∃ c, (c, second.kind) ∈ Lexeme.punctuation)
    (hmove : ∀ first second, d (first.move m.move) (second.move m.move) ↔ d first second)
    {f : Token × Token → Reading α} {p p' p'' : Reading α}
    (hf : ∀ first second, f (first, second) =
      if first.kind = k then p else if d first second then p' else p'')
    (hp : Agrees m g p p) (hp' : Agrees m g p' p') (hp'' : Agrees m g p'' p'')
    (htakes : m.after ≠ [] → p.Takes 1) (htakes' : m.after ≠ [] → p'.Takes 2) :
    Agrees m g (peekTwo >>= f) (peekTwo >>= f) where
  onward hafter s a u h := by
    rw [peekTwo_bind, hf] at h
    split at h
    · exact hp.onward hafter h
    · split at h
      · exact hp'.onward hafter h
      · exact hp''.onward hafter h
  relates s t hst := by
    rw [peekTwo_bind, peekTwo_bind, hf, hf]
    by_cases hs : s.next.token.kind = k
    · rw [if_pos hs]
      refine relates_of_inside (u := s.next) (fun hafter _ _ e => htakes hafter e) fun hin => ?_
      have ht : t.next.token.kind = k := by
        rw [← hs, (hst.next hin).token_eq, Token.kind_move]
      rw [if_pos ht]
      exact hp.relates hst
    have ht : ¬t.next.token.kind = k := fun ht => hs (hst.kind_next ht hc)
    rw [if_neg hs, if_neg ht]
    -- inside of the part both scanners see the same two tokens
    have hsame : m.after <:+ s.next.next.rest →
        (d s.next.token s.next.next.token ↔ d t.next.token t.next.next.token) := by
      intro hin
      have hnext := hst.next (hin.trans s.next.rest_next_suffix)
      rw [hnext.token_eq, (hnext.next hin).token_eq]
      exact hmove _ _
    by_cases hs' : d s.next.token s.next.next.token
    · rw [if_pos hs']
      refine relates_of_inside (u := s.next.next) (fun hafter _ _ e => htakes' hafter e) fun hin => ?_
      rw [if_pos ((hsame hin).1 hs')]
      exact hp'.relates hst
    · have ht' : ¬d t.next.token t.next.next.token := by
        intro ht'
        obtain ⟨c', hc'⟩ := hd _ _ ht'
        exact hs' ((hsame (hst.inside_of_kind_next_next rfl hc')).2 ht')
      rw [if_neg hs', if_neg ht']
      exact hp''.relates hst

/-! ## Repetition -/

/-- A round of a repetition, with its values moved. -/
def Round.move (k : σ → σ) (g : β → β) : Round σ β → Round σ β
  | .again state => .again (k state)
  | .done result => .done (g result)

section Loop

variable {k : σ → σ} {step step' : σ → Reading (Round σ β)}

theorem onward_step [m.Moves k] (hafter : m.after ≠ [])
    (hstep : ∀ state, Agrees m (Round.move k g') (step (k state)) (step' state)) (state : σ) :
    (step state).Onward := by
  have hstate := (hstep state).onward hafter
  rwa [Shift.Moves.eq_self (g := k) hafter state] at hstate

/-- A repetition agrees if each of its rounds does. -/
theorem agrees_loop [m.Moves k] (h : Progresses step) (h' : Progresses step')
    (hstep : ∀ state, Agrees m (Round.move k g') (step (k state)) (step' state)) (state : σ) :
    Agrees m g' (loop step h (k state)) (loop step' h' state) where
  onward hafter := onward_loop h (onward_step hafter hstep) (k state)
  relates := by
    intro s t hst
    generalize hstate : k state = moved
    fun_induction loop step h moved s generalizing state t with
    | case1 moved s moved' u e ih =>
      subst hstate
      have hrel := (hstep state).relates hst
      rw [e] at hrel
      refine relates_of_inside (u := u)
        (fun hafter _ _ e' => onward_loop h (onward_step hafter hstep) moved' e') fun hin => ?_
      obtain ⟨r, v, hq, hr, huv⟩ := hrel hin
      cases r with
      | done result => cases hr
      | again state' =>
        cases hr
        rw [loop_eq step', hq]
        exact ih state' huv rfl
    | case2 moved s result u e =>
      subst hstate
      have hrel := (hstep state).relates hst
      rw [e] at hrel
      intro hin
      obtain ⟨r, v, hq, hr, huv⟩ := hrel hin
      cases r with
      | again state' => cases hr
      | done result' =>
        cases hr
        rw [loop_eq, hq]
        exact ⟨result', v, rfl, rfl, huv⟩
    | case3 moved s fault u e =>
      subst hstate
      have hrel := (hstep state).relates hst
      rw [e] at hrel
      intro hafter
      obtain ⟨fault', v, hq, hfault, huv⟩ := hrel hafter
      rw [loop_eq, hq]
      exact ⟨fault', v, rfl, hfault, huv⟩

end Loop

theorem agrees_gather {round : Reading (List α × Bool)} (h : round.Consumes)
    (hround : Agrees m id round round) : Agrees m id (gather round h) (gather round h) := by
  refine agrees_loop (k := id) _ _ (fun found => hround.bind fun (items, more) => ?_) []
  cases more with
  | true => exact agrees_pure (Round.again (items.reverse ++ found))
  | false => exact agrees_pure (Round.done (items.reverse ++ found).reverse)

end Reading

end AcsOutline
