import AcsOutline.Grammar.Form
import AcsOutline.Proofs.Grammar.Agreement

/-!
# Heads of declarations

The words that tell declarations apart are tried: what they take is given back where they do
not fit.  Each head is given here by what it looks at, which is the current token, the token
behind an access modifier and the two tokens behind that one.
-/

namespace AcsOutline

namespace Scanner

/-- Whether the current token is an access modifier. -/
def isPrivate (s : Scanner) : Bool :=
  s.token.kind == .keyword .privateWord

/-- The scanner behind the access modifier, if there is one. -/
def unmodified (s : Scanner) : Scanner :=
  if s.token.kind = .keyword .privateWord then s.next else s

/-- Whether the current token starts `type name (`. -/
def startsFunction (s : Scanner) : Bool :=
  s.token.kind == .symbol && s.next.token.kind == .symbol && s.next.next.token.kind == .lparen

theorem unmodified_of_ne {s : Scanner} (h : s.token.kind ≠ .keyword .privateWord) :
    s.unmodified = s :=
  if_neg h

theorem unmodified_of_eq {s : Scanner} (h : s.token.kind = .keyword .privateWord) :
    s.unmodified = s.next :=
  if_pos h

end Scanner

namespace Grammar

open Reading

theorem accessModifier_eq (s : Scanner) : accessModifier s = .ok s.isPrivate s.unmodified := by
  show (if s.token.kind = .keyword .privateWord then _ else _ : Reading Bool) s = _
  unfold Scanner.isPrivate Scanner.unmodified
  by_cases h : s.token.kind = .keyword .privateWord
  · rw [if_pos h, if_pos h, h]
    rfl
  · rw [if_neg h, if_neg h, beq_eq_false_iff_ne.2 h]
    rfl

theorem startsFunction_eq (s : Scanner) : startsFunction s = .ok s.startsFunction s := by
  rw [startsFunction, current_bind, peekTwo_bind]
  rfl

theorem accessModifier_bind {α : Type} (f : Bool → Reading α) (s : Scanner) :
    (accessModifier >>= f) s = f s.isPrivate s.unmodified :=
  bind_of_ok (accessModifier_eq s) f

theorem startsFunction_bind {α : Type} (f : Bool → Reading α) (s : Scanner) :
    (startsFunction >>= f) s = f s.startsFunction s :=
  bind_of_ok (startsFunction_eq s) f

theorem forward_ite {α : Type} {c : Prop} [Decidable c] {p q : Reading α} (hp : p.Forward)
    (hq : q.Forward) : (if c then p else q).Forward := by
  split
  · exact hp
  · exact hq

theorem forward_accessModifier : accessModifier.Forward :=
  forward_current.bind fun _ => forward_ite
    (forward_next.bind fun _ => forward_pure _) (forward_pure _)

theorem forward_startsFunction : startsFunction.Forward :=
  forward_current.bind fun _ => forward_peekTwo.bind fun _ => forward_pure _

/-- The word of a directive is taken with the `#` before it. -/
theorem directiveWord_eq (word : String) (s : Scanner) :
    directiveWord word s =
      if s.token.kind = .hash ∧ s.next.token.isWord word = true then .ok (some ()) s.next
      else .ok none s := by
  rw [directiveWord, tentatively_eq (forward_current.bind fun _ => forward_ite
    (forward_next.bind fun _ => forward_ite (forward_pure _) (forward_pure _)) (forward_pure _)),
    current_bind]
  by_cases hhash : s.token.kind = .hash
  · rw [if_pos hhash, next_bind]
    by_cases hword : s.next.token.isWord word = true
    · rw [if_pos hword, if_pos ⟨hhash, hword⟩]
      rfl
    · rw [if_neg hword, if_neg (hword ·.2)]
      rfl
  · rw [if_neg hhash, if_neg (hhash ·.1)]
    rfl

/-- The word of an enum or struct is taken with the access modifier before it. -/
theorem aggregateHead_eq (word : Keyword) (s : Scanner) :
    aggregateHead word s =
      if s.unmodified.token.kind = .keyword word then .ok (some s.isPrivate) s.unmodified
      else .ok none s := by
  rw [aggregateHead, tentatively_eq (forward_accessModifier.bind fun _ =>
    forward_current.bind fun _ => forward_ite (forward_pure _) (forward_pure _)),
    accessModifier_bind, current_bind]
  by_cases hword : s.unmodified.token.kind = .keyword word
  · rw [if_pos hword, if_pos hword]
    rfl
  · rw [if_neg hword, if_neg hword]
    rfl

/-- A function starts with its word or with `type name (`. -/
theorem functionHead_eq (s : Scanner) :
    functionHead s =
      if s.unmodified.token.kind = .keyword .functionWord then
        match advance s.unmodified with
        | .ok _ u => .ok (some s.isPrivate) u
        | .error fault _ => .error fault s
      else if s.unmodified.startsFunction = true then .ok (some s.isPrivate) s.unmodified
      else .ok none s := by
  rw [functionHead, tentatively_eq (forward_accessModifier.bind fun _ =>
    forward_current.bind fun _ => forward_ite (forward_advance.bind fun _ => forward_pure _)
      (forward_startsFunction.bind fun _ => forward_ite (forward_pure _) (forward_pure _))),
    accessModifier_bind, current_bind]
  by_cases hword : s.unmodified.token.kind = .keyword .functionWord
  · rw [if_pos hword, if_pos hword, advance_bind]
    unfold advance
    by_cases heof : s.unmodified.next.token.kind = .eof
    · rw [if_pos heof, if_pos heof]
    · rw [if_neg heof, if_neg heof]
      rfl
  · rw [if_neg hword, if_neg hword, startsFunction_bind]
    by_cases hfunction : s.unmodified.startsFunction = true
    · rw [if_pos hfunction, if_pos hfunction]
      rfl
    · rw [if_neg hfunction, if_neg hfunction]
      rfl

/-- Variables start with a type that starts no function; only a type may follow an access
modifier here. -/
theorem variablesHead_eq (s : Scanner) :
    variablesHead s =
      if s.isPrivate = true ∧ s.unmodified.token.kind ≠ .symbol then
        .error (.unexpected "a declaration after `private`" s.unmodified.token) s
      else if s.unmodified.token.kind ≠ .symbol ∨ s.unmodified.startsFunction = true then
        .ok none s
      else .ok (some s.isPrivate) s.unmodified := by
  rw [variablesHead, tentatively_eq (forward_accessModifier.bind fun _ =>
    forward_current.bind fun _ => forward_ite (forward_unexpected _ _) (forward_ite (forward_pure _)
      (forward_startsFunction.bind fun _ => forward_ite (forward_pure _) (forward_pure _)))),
    accessModifier_bind, current_bind]
  by_cases hprivate : s.isPrivate = true ∧ s.unmodified.token.kind ≠ .symbol
  · rw [if_pos hprivate, if_pos hprivate]
    rfl
  rw [if_neg hprivate, if_neg hprivate]
  by_cases htype : s.unmodified.token.kind ≠ .symbol
  · rw [if_pos htype, if_pos (Or.inl htype)]
    rfl
  rw [if_neg htype, startsFunction_bind]
  by_cases hfunction : s.unmodified.startsFunction = true
  · rw [if_pos hfunction, if_pos (Or.inr hfunction)]
    rfl
  · rw [if_neg hfunction, if_neg (fun h => h.elim htype hfunction)]
    rfl

/-- A head of a namespace starts with `strict` or `namespace`. -/
theorem namespaceHead_eq (s : Scanner) :
    namespaceHead s =
      if s.token.kind = .keyword .strictWord then
        (expect (.keyword .namespaceWord) "`namespace` after `strict`" >>= fun _ =>
          some <$> namespaceNames true) s
      else if s.token.kind = .keyword .namespaceWord then (some <$> namespaceNames false) s
      else .ok none s := by
  rw [namespaceHead, current_bind]
  cases s.token.kind with
  | keyword word => cases word <;> rfl
  | _ => rfl

end Grammar

end AcsOutline
