import AcsOutline.Fault
import AcsOutline.Scanner.Snapshot

/-!
# Readings

A `Reading α` is a way to read an `α` from a scanner.  It ends with a result or with a fault,
and in both cases with the scanner at the place that was reached: nothing is undone on a fault
unless the reading asks for it with `tentatively`.

To look ahead is to read on and to go back to a snapshot.  A reading goes *forward* when it
always ends on a scanner that follows the first one (`Reading.Forward`); over such a reading
there is a way back.

A reading *keeps within* its input when, where it succeeds, it has done nothing to the scanner but
read tokens (`Reading.Within`), and it *consumes* when it has read at least one and did not
start at the end of input (`Reading.Consumes`).  `Reading.loop` runs a step as often as the step
asks to go on; it is given the fact that each such round consumes, and so it always ends.
-/

namespace AcsOutline

/-- A way to read a value from a scanner. -/
abbrev Reading (α : Type) := EStateM Fault Scanner α

/-- What a reading ends with. -/
abbrev Reading.Result (α : Type) := EStateM.Result Fault Scanner α

/-- The scanner that a reading ends with, after success and after a fault. -/
def Reading.Result.scanner {α : Type} : Reading.Result α → Scanner
  | .ok _ s => s
  | .error _ s => s

namespace Reading

variable {α β σ : Type}

/-! ## Single tokens -/

/-- The token read last. -/
def current : Reading Token := fun s => .ok s.token s

/-- The depth of braces. -/
def braceDepth : Reading Int := fun s => .ok s.braces s

/-- Reads the next token, which may be the end of input. -/
def next : Reading Token := fun s => .ok s.next.token s.next

/-- Reads the next token; the end of input is a fault. -/
def advance : Reading Token := fun s =>
  if s.next.token.kind = .eof then
    .error (.endOfInput s.next.token.span) s.next
  else
    .ok s.next.token s.next

theorem bind_of_ok {p : Reading α} {s t : Scanner} {a : α} (h : p s = .ok a t)
    (f : α → Reading β) : (p >>= f) s = f a t := by
  show EStateM.bind p f s = _
  rw [EStateM.bind, h]

theorem bind_of_error {p : Reading α} {s t : Scanner} {fault : Fault} (h : p s = .error fault t)
    (f : α → Reading β) : (p >>= f) s = .error fault t := by
  show EStateM.bind p f s = _
  rw [EStateM.bind, h]

theorem map_of_ok {p : Reading α} {s t : Scanner} {a : α} (h : p s = .ok a t) (f : α → β) :
    (f <$> p) s = .ok (f a) t := by
  show EStateM.map f p s = _
  rw [EStateM.map, h]

theorem current_bind (f : Token → Reading α) (s : Scanner) :
    (current >>= f) s = f s.token s := rfl

theorem next_bind (f : Token → Reading α) (s : Scanner) :
    (next >>= f) s = f s.next.token s.next := rfl

/-- Whether it is a fault or not, the next token has been read. -/
theorem scanner_advance (s : Scanner) : Result.scanner (advance s) = s.next := by
  unfold advance
  split <;> rfl

theorem advance_bind (f : Token → Reading α) (s : Scanner) :
    (advance >>= f) s =
      if s.next.token.kind = .eof then .error (.endOfInput s.next.token.span) s.next
      else f s.next.token s.next := by
  show EStateM.bind advance f s = _
  unfold EStateM.bind advance
  by_cases heof : s.next.token.kind = .eof
  · rw [if_pos heof, if_pos heof]
  · rw [if_neg heof, if_neg heof]

/-- The token that follows, which stays unread. -/
def peek : Reading Token := fun s => .ok s.peek (s.next.restore s.snapshot)

/-- Stops with the fault that a token does not fit. -/
def unexpected (expected : String) (t : Token) : Reading α :=
  throw (.unexpected expected t)

/-- Goes on with a result, or stops with a fault. -/
def settle (r : Except Fault α) : Reading α := fun s =>
  match r with
  | .ok a => .ok a s
  | .error fault => .error fault s

/-- Accepts a token of the right kind; a string that is cut off is never right. -/
def check (t : Token) (kind : TokenKind) (expected : String) : Reading Token :=
  if t.kind = kind ∧ !t.isUnclosedString then pure t else unexpected expected t

/-- Reads the next token, which has to be of a given kind. -/
def expect (kind : TokenKind) (expected : String) : Reading Token := do
  check (← next) kind expected

/-! ## Looking ahead -/

/-- Runs a reading and goes back to where it started, unless it has a result: neither a
reading that declines nor one that fails takes anything. -/
def tentatively (p : Reading (Option α)) : Reading (Option α) := fun s =>
  match p s with
  | .ok (some a) t => .ok (some a) t
  | .ok none t => .ok none (t.restore s.snapshot)
  | .error fault t => .error fault (t.restore s.snapshot)

/-- The two tokens that follow, which stay unread. -/
def peekTwo : Reading (Token × Token) := fun s =>
  .ok (s.next.token, s.next.next.token) (s.next.next.restore s.snapshot)

/-! ## Going forward -/

/-- A reading that ends, after success and after a fault, on a scanner that has gone on from
the one it began with. -/
def Forward (p : Reading α) : Prop :=
  ∀ s, (Result.scanner (p s)).Follows s

theorem forward_pure (a : α) : (pure a : Reading α).Forward :=
  fun s => .refl s

theorem forward_current : current.Forward :=
  fun s => .refl s

theorem forward_next : next.Forward :=
  fun s => s.follows_next

theorem forward_advance : advance.Forward := by
  intro s
  rw [scanner_advance]
  exact s.follows_next

theorem Forward.bind {p : Reading α} {f : α → Reading β} (hp : p.Forward)
    (hf : ∀ a, (f a).Forward) : (p >>= f).Forward := by
  intro s
  have h := hp s
  cases e : p s with
  | ok a t =>
    rw [e] at h
    rw [bind_of_ok e]
    exact (hf a t).trans h
  | error fault t =>
    rw [e] at h
    rw [bind_of_error e]
    exact h

theorem forward_unexpected (expected : String) (t : Token) :
    (unexpected expected t : Reading α).Forward :=
  fun s => .refl s

/-- A look at the token that follows changes nothing. -/
theorem peek_eq (s : Scanner) : peek s = .ok s.peek s :=
  congrArg (EStateM.Result.ok s.peek) (Scanner.restore_snapshot s.follows_next)

theorem forward_peek : peek.Forward := by
  intro s
  rw [peek_eq]
  exact .refl s

/-- A look at the two tokens that follow changes nothing. -/
theorem peekTwo_eq (s : Scanner) : peekTwo s = .ok (s.next.token, s.next.next.token) s :=
  congrArg (EStateM.Result.ok (s.next.token, s.next.next.token))
    (Scanner.restore_snapshot (s.next.follows_next.trans s.follows_next))

theorem forward_peekTwo : peekTwo.Forward := by
  intro s
  rw [peekTwo_eq]
  exact .refl s

/-- A forward reading that is tried without success leaves the scanner as it was. -/
theorem tentatively_eq {p : Reading (Option α)} (h : p.Forward) (s : Scanner) :
    tentatively p s =
      match p s with
      | .ok (some a) t => .ok (some a) t
      | .ok none _ => .ok none s
      | .error fault _ => .error fault s := by
  have hf := h s
  unfold tentatively
  split
  next => rfl
  next t e =>
    have ht : t.Follows s := by rwa [e] at hf
    rw [Scanner.restore_snapshot ht]
  next fault t e =>
    have ht : t.Follows s := by rwa [e] at hf
    rw [Scanner.restore_snapshot ht]

/-! ## What is left to read -/

/-- A reading that, where it succeeds, has only read tokens. -/
def Within (p : Reading α) : Prop :=
  ∀ ⦃s a t⦄, p s = .ok a t → s.Reads t

/-- A reading that, where it succeeds, has read a token, and not at the end of input. -/
def Consumes (p : Reading α) : Prop :=
  ∀ ⦃s a t⦄, p s = .ok a t → s.Advances t

/-- A reading that never succeeds. -/
def Fails (p : Reading α) : Prop :=
  ∀ ⦃s a t⦄, p s = .ok a t → False

theorem bind_eq_ok {p : Reading α} {f : α → Reading β} {s t : Scanner} {b : β} :
    (p >>= f) s = .ok b t ↔ ∃ a u, p s = .ok a u ∧ f a u = .ok b t := by
  change EStateM.bind p f s = _ ↔ _
  unfold EStateM.bind
  cases h : p s with
  | ok a u =>
    simp only [EStateM.Result.ok.injEq]
    constructor
    · exact fun e => ⟨a, u, ⟨rfl, rfl⟩, e⟩
    · rintro ⟨_, _, ⟨rfl, rfl⟩, e⟩
      exact e
  | error fault u => simp

theorem map_eq_ok {p : Reading α} {f : α → β} {s t : Scanner} {b : β} :
    (f <$> p) s = .ok b t ↔ ∃ a, p s = .ok a t ∧ f a = b := by
  change EStateM.map f p s = _ ↔ _
  unfold EStateM.map
  cases h : p s with
  | ok a u =>
    simp only [EStateM.Result.ok.injEq]
    constructor
    · rintro ⟨e, rfl⟩
      exact ⟨a, ⟨rfl, rfl⟩, e⟩
    · rintro ⟨_, ⟨rfl, rfl⟩, e⟩
      exact ⟨e, rfl⟩
  | error fault u => simp

theorem pure_eq_ok {a b : α} {s t : Scanner} :
    (pure a : Reading α) s = .ok b t ↔ a = b ∧ s = t := by
  change EStateM.Result.ok a s = _ ↔ _
  simp

theorem Consumes.within {p : Reading α} (h : p.Consumes) : p.Within :=
  fun _ _ _ e => (h e).reads

theorem Fails.consumes {p : Reading α} (h : p.Fails) : p.Consumes :=
  fun _ _ _ e => (h e).elim

theorem within_pure (a : α) : (pure a : Reading α).Within := by
  intro s b t h
  obtain ⟨_, rfl⟩ := pure_eq_ok.1 h
  exact .refl s

theorem fails_throw (fault : Fault) : (throw fault : Reading α).Fails := by
  intro s a t h
  cases h

theorem consumes_throw (fault : Fault) : (throw fault : Reading α).Consumes :=
  (fails_throw fault).consumes

theorem consumes_unexpected (expected : String) (t : Token) :
    (unexpected expected t : Reading α).Consumes :=
  consumes_throw _

theorem Within.bind {p : Reading α} {f : α → Reading β} (hp : p.Within)
    (hf : ∀ a, (f a).Within) : (p >>= f).Within := by
  intro s b t h
  obtain ⟨a, u, h₁, h₂⟩ := bind_eq_ok.1 h
  exact (hp h₁).trans (hf a h₂)

theorem Consumes.bind {p : Reading α} {f : α → Reading β} (hp : p.Consumes)
    (hf : ∀ a, (f a).Within) : (p >>= f).Consumes := by
  intro s b t h
  obtain ⟨a, u, h₁, h₂⟩ := bind_eq_ok.1 h
  exact (hp h₁).trans (hf a h₂)

theorem Fails.bind {p : Reading α} (hp : p.Fails) (f : α → Reading β) : (p >>= f).Fails := by
  intro s b t h
  obtain ⟨a, u, h₁, -⟩ := bind_eq_ok.1 h
  exact hp h₁

theorem Within.map {p : Reading α} (hp : p.Within) (f : α → β) : (f <$> p).Within := by
  intro s b t h
  obtain ⟨a, h', -⟩ := map_eq_ok.1 h
  exact hp h'

theorem within_current : current.Within := by
  rintro s a t ⟨⟩
  exact .refl s

theorem within_braceDepth : braceDepth.Within := by
  rintro s a t ⟨⟩
  exact .refl s

theorem within_peek : peek.Within := by
  intro s a t h
  rw [peek_eq] at h
  cases h
  exact .refl s

theorem within_peekTwo : peekTwo.Within := by
  intro s a t h
  rw [peekTwo_eq] at h
  cases h
  exact .refl s

theorem within_settle (r : Except Fault α) : (settle r).Within := by
  intro s a t h
  cases r <;> cases h
  exact .refl s

theorem within_next : next.Within := by
  rintro s a t ⟨⟩
  exact (Scanner.Reads.refl s).next

theorem consumes_advance : advance.Consumes := by
  intro s a t h
  unfold advance at h
  split at h
  · cases h
  next hne =>
    cases h
    exact ⟨.refl _, Or.inr hne⟩

theorem within_check (t : Token) (kind : TokenKind) (expected : String) :
    (check t kind expected).Within := by
  unfold check
  split
  · exact within_pure t
  · exact (consumes_unexpected expected t).within

/-- After the next token, what is read next may rely on that token not being the end of
input, where it fails on the end of input. -/
theorem consumes_next_bind {f : Token → Reading β}
    (h : ∀ a, a.kind ≠ .eof → (f a).Within)
    (heof : ∀ a, a.kind = .eof → (f a).Fails) : (next >>= f).Consumes := by
  intro s b t e
  obtain ⟨a, u, h₁, h₂⟩ := bind_eq_ok.1 e
  cases h₁
  by_cases hk : s.next.token.kind = .eof
  · exact (heof _ hk h₂).elim
  · exact ⟨h _ hk h₂, Or.inr hk⟩

theorem fails_check_of_ne {t : Token} {kind : TokenKind} {expected : String}
    (h : t.kind ≠ kind) : (check t kind expected).Fails := by
  unfold check
  rw [if_neg (fun e => h e.1)]
  exact fails_throw _

theorem consumes_expect {kind : TokenKind} (h : kind ≠ .eof) (expected : String) :
    (expect kind expected).Consumes :=
  consumes_next_bind (fun a _ => within_check a kind expected)
    (fun _ ha => fails_check_of_ne (ha ▸ h.symm))

theorem Within.tentatively {p : Reading (Option α)} (h : p.Within) :
    (tentatively p).Within := by
  intro s a t e
  unfold Reading.tentatively at e
  split at e
  next h' =>
    cases e
    exact h h'
  next h' =>
    cases e
    rw [Scanner.restore_snapshot (h h').follows]
    exact .refl s
  next => cases e

/-! ## Repetition -/

/-- What a round of a repetition decides. -/
inductive Round (σ β : Type) where
  /-- There is another round, with this state. -/
  | again (state : σ)
  /-- The repetition is over, with this result. -/
  | done (result : β)

/-- A step that has read a token whenever it asks for another round, and not at the end of
input. -/
def Progresses (step : σ → Reading (Round σ β)) : Prop :=
  ∀ state ⦃s state' t⦄, step state s = .ok (.again state') t → s.Advances t

theorem Progresses.of_consumes {step : σ → Reading (Round σ β)}
    (h : ∀ a, (step a).Consumes) : Progresses step :=
  fun state _ _ _ e => h state e

/-- Runs a step again and again, until it is done. -/
def loop (step : σ → Reading (Round σ β)) (h : Progresses step) (state : σ) : Reading β :=
  fun s =>
    match _e : step state s with
    | .ok (.again state') t => loop step h state' t
    | .ok (.done result) t => .ok result t
    | .error fault t => .error fault t
termination_by s => s.remaining
decreasing_by exact (h _ _e).remaining_lt

/-- One round of a repetition, and the rounds after it. -/
theorem loop_eq (step : σ → Reading (Round σ β)) (h : Progresses step) (state : σ)
    (s : Scanner) :
    loop step h state s =
      match step state s with
      | .ok (.again state') t => loop step h state' t
      | .ok (.done result) t => .ok result t
      | .error fault t => .error fault t := by
  rw [loop]
  split <;> rename_i e <;> rw [e]

theorem within_loop {step : σ → Reading (Round σ β)} (h : Progresses step)
    (hw : ∀ state, (step state).Within) (state : σ) : (loop step h state).Within := by
  intro s b t
  fun_induction loop step h state s with
  | case1 state s state' u e ih => exact fun hb => (hw _ e).trans (ih hb)
  | case2 state s result u e =>
    rintro ⟨⟩
    exact hw _ e
  | case3 => exact fun hb => nomatch hb

theorem forward_loop {step : σ → Reading (Round σ β)} (h : Progresses step)
    (hf : ∀ state, (step state).Forward) (state : σ) : (loop step h state).Forward := by
  intro s
  have hstep := hf state s
  fun_induction loop step h state s with
  | case1 state s state' t e ih =>
    have ht : t.Follows s := by rwa [e] at hstep
    exact (ih (hf state' t)).trans ht
  | case2 state s result t e => rwa [e] at hstep
  | case3 state s fault t e => rwa [e] at hstep

/-- One round of `gather`: `found` is what earlier rounds found, the latest first. -/
def gatherRound (round : Reading (List α × Bool)) (found : List α) :
    Reading (Round (List α) (List α)) := do
  let (items, more) ← round
  let found := items.reverse ++ found
  return if more then .again found else .done found.reverse

theorem consumes_gatherRound {round : Reading (List α × Bool)} (h : round.Consumes)
    (found : List α) : (gatherRound round found).Consumes :=
  h.bind fun _ => within_pure _

/-- Runs a round as often as it says that there is more, and collects what the rounds
find. -/
def gather (round : Reading (List α × Bool)) (h : round.Consumes) : Reading (List α) :=
  loop (gatherRound round) (.of_consumes (consumes_gatherRound h)) []

theorem within_gather {round : Reading (List α × Bool)} (h : round.Consumes) :
    (gather round h).Within :=
  within_loop _ (fun found => (consumes_gatherRound h found).within) []

end Reading

end AcsOutline
