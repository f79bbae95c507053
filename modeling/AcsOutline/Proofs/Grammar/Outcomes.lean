import AcsOutline.Scanner.Reading

/-!
# Outcomes of readings

What a reading comes to at one place is told by two conditions (`Reading.Meets`): `Q` holds of its
result and of the place where it ends, or `E` holds of its fault and of the place where that arises.
The lemmas here go by what readings are put together with, so that the outcome of a declaration is
found by the shape of its definition.
-/

namespace AcsOutline

namespace Reading

variable {α β σ : Type} {Q Q' : α → Scanner → Prop} {R : β → Scanner → Prop}
  {E E' : Fault → Scanner → Prop} {s : Scanner}

instance [DecidableEq α] : DecidableEq (Result α)
  | .ok a s, .ok b t => decidable_of_iff (a = b ∧ s = t) (by simp)
  | .error fault s, .error fault' t => decidable_of_iff (fault = fault' ∧ s = t) (by simp)
  | .ok _ _, .error _ _ => isFalse (by simp)
  | .error _ _, .ok _ _ => isFalse (by simp)

/-- A token of the right kind is taken; only a string may still be cut off. -/
theorem check_of_kind {t : Token} {kind : TokenKind} (h : t.kind = kind) (hstring : kind ≠ .string)
    (expected : String) : check t kind expected = pure t := by
  have hclosed : t.isUnclosedString = false := by
    rw [Token.isUnclosedString, h, beq_eq_false_iff_ne.2 hstring, Bool.false_and]
  rw [check, if_pos ⟨h, by rw [hclosed]; rfl⟩]

theorem bind_congr_at {p q : Reading α} (h : p s = q s) (f : α → Reading β) :
    (p >>= f) s = (q >>= f) s := by
  show EStateM.bind p f s = EStateM.bind q f s
  rw [EStateM.bind, EStateM.bind, h]

/-- Read at `s`, a success meets `Q` and a fault meets `E`. -/
def Meets (p : Reading α) (s : Scanner) (Q : α → Scanner → Prop) (E : Fault → Scanner → Prop) :
    Prop :=
  match p s with
  | .ok a t => Q a t
  | .error fault t => E fault t

theorem Meets.ok {p : Reading α} {a : α} {t : Scanner} (h : p.Meets s Q E) (hp : p s = .ok a t) :
    Q a t := by
  rwa [Meets, hp] at h

theorem Meets.error {p : Reading α} {fault : Fault} {t : Scanner} (h : p.Meets s Q E)
    (hp : p s = .error fault t) : E fault t := by
  rwa [Meets, hp] at h

theorem Meets.mono {p : Reading α} (h : p.Meets s Q E) (hQ : ∀ a t, Q a t → Q' a t)
    (hE : ∀ fault t, E fault t → E' fault t) : p.Meets s Q' E' := by
  unfold Meets at h ⊢
  cases hp : p s with
  | ok a t =>
    rw [hp] at h
    exact hQ a t h
  | error fault t =>
    rw [hp] at h
    exact hE fault t h

theorem meets_pure {a : α} (h : Q a s) : (pure a : Reading α).Meets s Q E := h

theorem meets_throw {fault : Fault} (h : E fault s) : (throw fault : Reading α).Meets s Q E := h

theorem Meets.bind {p : Reading α} {f : α → Reading β} (hp : p.Meets s Q E)
    (hf : ∀ a t, Q a t → (f a).Meets t R E) : (p >>= f).Meets s R E := by
  cases h : p s with
  | ok a t =>
    have hmeets := hf a t (hp.ok h)
    rwa [Meets, bind_of_ok h]
  | error fault t =>
    have hmeets := hp.error h
    rwa [Meets, bind_of_error h]

theorem Meets.map {p : Reading α} {f : α → β} (hp : p.Meets s (fun a t => R (f a) t) E) :
    (f <$> p).Meets s R E := by
  rw [← bind_pure_comp]
  exact hp.bind fun a t h => meets_pure h

theorem Meets.ite {c : Prop} [Decidable c] {p q : Reading α} (hp : c → p.Meets s Q E)
    (hq : ¬c → q.Meets s Q E) : (if c then p else q).Meets s Q E := by
  by_cases h : c
  · rw [if_pos h]
    exact hp h
  · rw [if_neg h]
    exact hq h

/-- What a round of a repetition comes to: `I` holds before the next one, or `R` holds at the
end. -/
def Round.Keeps (I : σ → Scanner → Prop) (R : β → Scanner → Prop) : Round σ β → Scanner → Prop
  | .again state, t => I state t
  | .done b, t => R b t

/-- **What every round keeps holds throughout a repetition.** -/
theorem meets_loop {step : σ → Reading (Round σ β)} {I : σ → Scanner → Prop} (h : Progresses step)
    (hstep : ∀ state s, I state s → (step state).Meets s (Round.Keeps I R) E) {state : σ}
    (hs : I state s) : (loop step h state).Meets s R E := by
  fun_induction loop step h state s with
  | case1 state s state' t e ih =>
    have hloop : loop step h state s = loop step h state' t := by rw [loop_eq, e]
    rw [Meets, hloop]
    exact ih ((hstep state s hs).ok e)
  | case2 state s b t e =>
    have hloop : loop step h state s = .ok b t := by rw [loop_eq, e]
    rw [Meets, hloop]
    exact (hstep state s hs).ok e
  | case3 state s fault t e =>
    have hloop : loop step h state s = .error fault t := by rw [loop_eq, e]
    rw [Meets, hloop]
    exact (hstep state s hs).error e

/-- A condition on places that every round keeps is kept by all of them. -/
theorem meets_gather {round : Reading (List α × Bool)} {P : Scanner → Prop} (h : round.Consumes)
    (hround : ∀ s, P s → round.Meets s (fun _ t => P t) E) (hs : P s) :
    (gather round h).Meets s (fun _ t => P t) E := by
  refine meets_loop (I := fun _ t => P t) _ (fun found s hs => ?_) hs
  refine (hround s hs).bind fun ⟨items, more⟩ t ht => meets_pure ?_
  cases more <;> exact ht

end Reading

end AcsOutline
