import AcsOutline.Proofs.Grammar.Declarations
import AcsOutline.Proofs.Grammar.Heads

/-!
# Forms agree

A form is told from the others by a few tokens (`Proofs.Grammar.Heads`), so that it agrees on a
part of a source once these lie in the part (`Scanner.Sees`).  Where a declaration is read with
success, it has taken these tokens itself (`Reading.Tells`): a part that holds the declaration
holds all that was looked at.
-/

namespace AcsOutline

/-- What is looked at to tell declarations apart stands before `rest`: the token behind a `#` or
an access modifier, and the two tokens behind a type. -/
structure Scanner.Sees (s : Scanner) (rest : List Char) : Prop where
  here : rest <:+ s.rest
  next : s.token.kind = .hash ∨ s.token.kind = .keyword .privateWord → rest <:+ s.next.rest
  typed : s.unmodified.token.kind = .symbol → rest <:+ s.unmodified.next.next.rest

theorem Scanner.Sees.trans {s : Scanner} {rest rest' : List Char} (h : s.Sees rest)
    (hsuffix : rest' <:+ rest) : s.Sees rest' where
  here := hsuffix.trans h.here
  next hkind := hsuffix.trans (h.next hkind)
  typed hkind := hsuffix.trans (h.typed hkind)

theorem Scanner.sees_nil (s : Scanner) : s.Sees [] where
  here := List.nil_suffix
  next _ := List.nil_suffix
  typed _ := List.nil_suffix

/-- After any other token, nothing is looked at. -/
theorem Scanner.sees_of_kind {s : Scanner} {rest : List Char} (hrest : rest <:+ s.rest)
    (hhash : s.token.kind ≠ .hash) (hprivate : s.token.kind ≠ .keyword .privateWord)
    (hsymbol : s.token.kind ≠ .symbol) : s.Sees rest where
  here := hrest
  next h := h.elim (absurd · hhash) (absurd · hprivate)
  typed h := by
    rw [unmodified_of_ne hprivate] at h
    exact absurd h hsymbol

namespace Reading

variable {α β : Type}

/-- A declaration can be read or declined: nothing is taken where it is declined, and where it is
read, it holds what is looked at to tell it from others. -/
structure Tells (p : Reading (Option α)) : Prop where
  declines : ∀ ⦃s u⦄, p s = .ok none u → u = s
  sees : ∀ ⦃s a u⦄, p s = .ok (some a) u → s.Sees u.rest

/-- What agrees on every part goes on. -/
theorem onward_of_agrees {p : Reading α} {g : Shift → α → α} (h : ∀ m, Agrees m (g m) p p) :
    p.Onward :=
  (h ⟨[], [], [' '], 0, [], .all, Or.inr ⟨rfl, rfl⟩⟩).onward (List.cons_ne_nil _ _)

end Reading

namespace Scanner

variable {m : Shift} {s t : Scanner}

theorem Mirrors.kind_eq (h : Mirrors m s t) : s.token.kind = t.token.kind := by
  rw [h.token_eq, Token.kind_move]

theorem Mirrors.isPrivate_eq (h : Mirrors m s t) : s.isPrivate = t.isPrivate := by
  rw [isPrivate, isPrivate, h.kind_eq]

/-- Behind the access modifier the scanners are at the same place again. -/
theorem Mirrors.unmodified (h : Mirrors m s t) (hs : s.Sees m.after) :
    Mirrors m s.unmodified t.unmodified := by
  by_cases hprivate : s.token.kind = .keyword .privateWord
  · rw [unmodified_of_eq hprivate, unmodified_of_eq (h.kind_eq ▸ hprivate)]
    exact h.next (hs.next (Or.inr hprivate))
  · rw [unmodified_of_ne hprivate, unmodified_of_ne (h.kind_eq ▸ hprivate)]
    exact h

/-- Both scanners find that a function starts, or neither does. -/
theorem Mirrors.startsFunction_eq (h : Mirrors m s t)
    (hin : s.token.kind = .symbol → m.after <:+ s.next.next.rest) :
    s.startsFunction = t.startsFunction := by
  rw [startsFunction, startsFunction, h.kind_eq]
  by_cases hsymbol : t.token.kind = .symbol
  · have hrest := hin (h.kind_eq.trans hsymbol)
    have hnext := h.next (hrest.trans s.next.rest_next_suffix)
    rw [hnext.kind_eq, (hnext.next hrest).kind_eq]
  · rw [beq_eq_false_iff_ne.2 hsymbol, Bool.false_and, Bool.false_and, Bool.false_and,
      Bool.false_and]

end Scanner

namespace Grammar

open Reading

variable {m : Shift} {s t : Scanner}

/-! ## Heads -/

theorem relates_directiveWord (word : String) (h : Scanner.Mirrors m s t) (hs : s.Sees m.after) :
    m.Relates id (directiveWord word s) (directiveWord word t) := by
  rw [directiveWord_eq, directiveWord_eq]
  by_cases hhash : s.token.kind = .hash
  · have hnext := h.next (hs.next (Or.inl hhash))
    have hword : t.next.token.isWord word = s.next.token.isWord word := by
      rw [hnext.token_eq, Token.isWord_move]
    rw [hword, ← h.kind_eq]
    split
    · exact fun _ => ⟨_, _, rfl, rfl, hnext⟩
    · exact fun _ => ⟨_, _, rfl, rfl, h⟩
  · rw [if_neg (hhash ·.1), if_neg (fun ht => hhash (h.kind_eq.trans ht.1))]
    exact fun _ => ⟨_, _, rfl, rfl, h⟩

theorem relates_aggregateHead (word : Keyword) (h : Scanner.Mirrors m s t) (hs : s.Sees m.after) :
    m.Relates id (aggregateHead word s) (aggregateHead word t) := by
  have hu := h.unmodified hs
  rw [aggregateHead_eq, aggregateHead_eq, hu.kind_eq, h.isPrivate_eq]
  split
  · exact fun _ => ⟨_, _, rfl, rfl, hu⟩
  · exact fun _ => ⟨_, _, rfl, rfl, h⟩

theorem relates_functionHead (h : Scanner.Mirrors m s t) (hs : s.Sees m.after) :
    m.Relates id (functionHead s) (functionHead t) := by
  have hu := h.unmodified hs
  rw [functionHead_eq, functionHead_eq, hu.kind_eq, h.isPrivate_eq,
    hu.startsFunction_eq hs.typed]
  split
  · have hadvance := agrees_advance.relates hu
    cases e : advance s.unmodified with
    | ok a u =>
      rw [e] at hadvance
      intro hin
      obtain ⟨b, v, hq, -, huv⟩ := hadvance hin
      rw [hq]
      exact ⟨_, _, rfl, rfl, huv⟩
    | error fault u =>
      rw [e] at hadvance
      intro hafter
      obtain ⟨fault', v, hq, hfault, -⟩ := hadvance hafter
      rw [hq]
      exact ⟨_, _, rfl, hfault, h⟩
  · split
    · exact fun _ => ⟨_, _, rfl, rfl, hu⟩
    · exact fun _ => ⟨_, _, rfl, rfl, h⟩

theorem relates_variablesHead (h : Scanner.Mirrors m s t) (hs : s.Sees m.after) :
    m.Relates id (variablesHead s) (variablesHead t) := by
  have hu := h.unmodified hs
  rw [variablesHead_eq, variablesHead_eq, hu.kind_eq, h.isPrivate_eq,
    hu.startsFunction_eq hs.typed]
  split
  · exact fun _ => ⟨_, _, rfl, by rw [Fault.move_unexpected, hu.token_eq], h⟩
  · split
    · exact fun _ => ⟨_, _, rfl, rfl, h⟩
    · exact fun _ => ⟨_, _, rfl, rfl, hu⟩

/-! ## What follows a head -/

/-- What an enum reads after its head. -/
def enumRest (isPrivate : Bool) : Reading (Option Declaration) := do
  let _ ← next
  let name ← takeName
  let underlying ← takeUnderlying
  let _ ← check (← current) .lbrace "`\x7b` to open the enum body"
  let members ← gather enumMember consumes_enumMember
  takeSemicolon
  return some (.enum ⟨isPrivate, name, underlying, members⟩)

/-- What a struct reads after its head. -/
def structRest (isPrivate : Bool) : Reading (Option Declaration) := do
  let _ ← next
  let name ← takeName
  let _ ← check (← current) .lbrace "`\x7b` to open the struct body"
  let members ← gather structMembers consumes_structMembers
  let instances ← structInstances
  return some (.struct ⟨isPrivate, name, members, instances⟩)

/-- What a function reads after the parenthesis that opens its parameters, up to its body. -/
def functionTail (isPrivate : Bool) (type name : String) : Reading (FunctionDecl × Int) := do
  let ps ← parameters functionParameter within_functionParameter
  let depth ← braceDepth
  let isClientside ← takeClientside
  return (⟨isPrivate, type, name, ps, isClientside⟩, depth)

/-- What a function reads after its head. -/
def functionRest (isPrivate : Bool) : Reading (Option Declaration) := do
  let (f, depth) ← functionSignature isPrivate
  functionBody depth
  return some (.function f)

/-- What variables read after their head. -/
def variablesRest (isPrivate : Bool) : Reading (Option Declaration) := do
  let type ← current
  let items ← gather variableItem consumes_variableItem
  return some (.variableGroup ⟨isPrivate, typeText type, items⟩)

/-- A reading that goes on if there is something to go on with. -/
def orDecline {α β : Type} (f : α → Reading (Option β)) : Option α → Reading (Option β)
  | some a => f a
  | none => pure none

theorem directive_eq (word : String) (body : Reading Declaration) :
    directive word body = directiveWord word >>= orDecline fun _ => some <$> body := by
  unfold directive
  congr 1
  funext a
  cases a <;> rfl

theorem enumDeclaration_eq : enumDeclaration = aggregateHead .enumWord >>= orDecline enumRest := by
  unfold enumDeclaration
  congr 1
  funext a
  cases a <;> rfl

theorem structDeclaration_eq :
    structDeclaration = aggregateHead .structWord >>= orDecline structRest := by
  unfold structDeclaration
  congr 1
  funext a
  cases a <;> rfl

theorem functionDeclaration_eq : functionDeclaration = functionHead >>= orDecline functionRest := by
  unfold functionDeclaration
  congr 1
  funext a
  cases a <;> rfl

theorem variablesDeclaration_eq :
    variablesDeclaration = variablesHead >>= orDecline variablesRest := by
  unfold variablesDeclaration
  congr 1
  funext a
  cases a <;> rfl

theorem agrees_enumRest (isPrivate : Bool) :
    Agrees m id (enumRest isPrivate) (enumRest isPrivate) :=
  agrees_next.bind fun _ => agrees_takeName.bind fun _ => agrees_takeUnderlying.bind fun _ =>
    agrees_current.bind fun t => (agrees_check t _ _).bind fun _ =>
      (agrees_gather consumes_enumMember agrees_enumMember).bind fun _ =>
        agrees_takeSemicolon.bind fun _ => agrees_pure _

theorem agrees_structRest (isPrivate : Bool) :
    Agrees m id (structRest isPrivate) (structRest isPrivate) :=
  agrees_next.bind fun _ => agrees_takeName.bind fun _ => agrees_current.bind fun t =>
    (agrees_check t _ _).bind fun _ =>
      (agrees_gather consumes_structMembers agrees_structMembers).bind fun _ =>
        agrees_structInstances.bind fun _ => agrees_pure _

theorem agrees_functionTail (isPrivate : Bool) (type name : String) :
    Agrees m (Prod.map id (· + m.braces)) (functionTail isPrivate type name)
      (functionTail isPrivate type name) :=
  (agrees_parameters within_functionParameter agrees_functionParameter).bind fun ps =>
    agrees_braceDepth.bind fun depth => agrees_takeClientside.bind fun isClientside =>
      agrees_pure (FunctionDecl.mk isPrivate type name ps isClientside, depth)

theorem agrees_functionSignature (isPrivate : Bool) :
    Agrees m (Prod.map id (· + m.braces)) (functionSignature isPrivate)
      (functionSignature isPrivate) :=
  agrees_current.bind fun t => (agrees_check t _ _).bind fun type =>
    (agrees_expect _ _).bind fun name => (agrees_expect _ _).bind fun _ =>
      agrees_functionTail isPrivate (typeText type) name.text

theorem agrees_functionRest (isPrivate : Bool) :
    Agrees m id (functionRest isPrivate) (functionRest isPrivate) :=
  (agrees_functionSignature isPrivate).bind fun ⟨_, depth⟩ =>
    (agrees_functionBody depth).bind fun _ => agrees_pure _

theorem agrees_variablesRest (isPrivate : Bool) :
    Agrees m id (variablesRest isPrivate) (variablesRest isPrivate) :=
  agrees_current.bind fun _ =>
    (agrees_gather consumes_variableItem agrees_variableItem).bind fun _ => agrees_pure _

/-- A form agrees where its head does. -/
theorem relates_headed {β : Type} {head : Reading (Option β)}
    {f : β → Reading (Option Declaration)} (hhead : m.Relates id (head s) (head t))
    (hf : ∀ a, Agrees m id (f a) (f a)) :
    m.Relates id ((head >>= orDecline f) s) ((head >>= orDecline f) t) := by
  have hrest : ∀ a, Agrees m id (orDecline f a) (orDecline f a) := by
    intro a
    cases a with
    | some a => exact hf a
    | none => exact agrees_pure none
  exact relates_bind hhead (fun hafter a => (hrest a).onward hafter)
    fun a _ _ _ huv => (hrest a).relates huv

/-! ## What a declaration takes -/

theorem takes_variableItem : variableItem.Takes 2 := by
  refine (readsNext_expect _ _).takes_bind fun name => Takes.bind (p := variableTail name.text)
    (readsNext_next.takes_bind fun after => ?_) fun v => ?_
  · exact .ite (onward_of_agrees fun _ => agrees_arrayTail _)
      (.ite (onward_of_agrees fun _ => agrees_initialValue _) (onward_pure _))
  · refine onward_current.bind fun after => ?_
    split
    · exact onward_pure _
    · exact onward_pure _
    · exact onward_throw _

theorem takes_variablesRest (isPrivate : Bool) : (variablesRest isPrivate).Takes 2 := by
  intro s d u h
  rw [variablesRest, current_bind] at h
  exact (takes_gather consumes_variableItem takes_variableItem).bind (fun _ => onward_pure _) h

theorem takes_functionSignature (isPrivate : Bool) : (functionSignature isPrivate).Takes 2 := by
  intro s d u h
  rw [functionSignature, current_bind] at h
  obtain ⟨type, v, hcheck, h⟩ := bind_eq_ok.1 h
  obtain ⟨-, rfl, rfl⟩ := check_eq_ok.1 hcheck
  exact (readsNext_expect _ _).takes_bind (fun name => (readsNext_expect _ _).takes_bind fun _ =>
    onward_of_agrees fun _ => agrees_functionTail isPrivate _ name.text) h

theorem onward_functionBody (depth : Int) : (functionBody depth).Onward :=
  onward_current.bind fun _ => by
    split
    · exact onward_pure _
    · exact onward_skipTo _ _ _
    · exact onward_throw _

theorem takes_functionRest (isPrivate : Bool) : (functionRest isPrivate).Takes 2 :=
  (takes_functionSignature isPrivate).bind fun _ => (onward_functionBody _).bind fun _ =>
    onward_pure _

/-- A reading that does not decline. -/
def Declares {α : Type} (p : Reading (Option α)) : Prop :=
  ∀ ⦃s u⦄, p s ≠ .ok none u

theorem declares_some {α : Type} (a : α) : Declares (pure (some a)) :=
  fun _ _ h => nomatch h

theorem declares_unexpected {α : Type} (expected : String) (t : Token) :
    Declares (unexpected expected t : Reading (Option α)) :=
  fun _ _ h => nomatch h

theorem Declares.bind {α β : Type} {p : Reading α} {f : α → Reading (Option β)}
    (hf : ∀ a, Declares (f a)) : Declares (p >>= f) := by
  intro s u h
  obtain ⟨a, v, -, h⟩ := bind_eq_ok.1 h
  exact hf a h

theorem declares_map {α β : Type} (p : Reading α) (f : α → β) :
    Declares ((some <| f ·) <$> p) :=
  Declares.bind (p := p) fun a => declares_some (f a)

theorem Declares.ite {α : Type} {c : Prop} [Decidable c] {p q : Reading (Option α)}
    (hp : Declares p) (hq : Declares q) : Declares (if c then p else q) := by
  split
  · exact hp
  · exact hq

theorem declares_enumRest (isPrivate : Bool) : Declares (enumRest isPrivate) :=
  .bind fun _ => .bind fun _ => .bind fun _ => .bind fun _ => .bind fun _ => .bind fun _ =>
    .bind fun _ => declares_some _

theorem declares_structRest (isPrivate : Bool) : Declares (structRest isPrivate) :=
  .bind fun _ => .bind fun _ => .bind fun _ => .bind fun _ => .bind fun _ => .bind fun _ =>
    declares_some _

theorem declares_functionRest (isPrivate : Bool) : Declares (functionRest isPrivate) :=
  .bind fun _ => .bind fun _ => declares_some _

theorem declares_variablesRest (isPrivate : Bool) : Declares (variablesRest isPrivate) :=
  .bind fun _ => .bind fun _ => declares_some _

/-- A form that starts with words that are tried. -/
theorem tells_headed {β : Type} {head : Reading (Option β)} {f : β → Reading (Option Declaration)}
    (hnone : ∀ ⦃s u⦄, head s = .ok none u → u = s) (hdeclares : ∀ a, Declares (f a))
    (hsome : ∀ ⦃s a v⦄, head s = .ok (some a) v →
      ∀ ⦃d u⦄, f a v = .ok d u → s.Sees u.rest) : Tells (head >>= orDecline f) where
  declines s u h := by
    obtain ⟨a, v, hhead, h⟩ := bind_eq_ok.1 h
    cases a with
    | none =>
      obtain ⟨-, rfl⟩ := pure_eq_ok.1 h
      exact hnone hhead
    | some a => exact (hdeclares a h).elim
  sees s d u h := by
    obtain ⟨a, v, hhead, h⟩ := bind_eq_ok.1 h
    cases a with
    | none => cases h
    | some a => exact hsome hhead h

/-- A form that starts with a word, perhaps behind an access modifier. -/
theorem sees_of_unmodified {s : Scanner} {rest : List Char}
    (hhash : s.unmodified.token.kind ≠ .hash) (hrest : rest <:+ s.unmodified.rest)
    (htyped : s.unmodified.token.kind = .symbol → rest <:+ s.unmodified.next.next.rest) :
    s.Sees rest where
  here := by
    rw [Scanner.unmodified] at hrest
    split at hrest
    · exact hrest.trans s.rest_next_suffix
    · exact hrest
  next := by
    rintro (hkind | hkind)
    · rw [Scanner.unmodified_of_ne (by rw [hkind]; decide)] at hhash
      exact absurd hkind hhash
    · rwa [Scanner.unmodified_of_eq hkind] at hrest
  typed := htyped

theorem tells_directive (word : String) {body : Reading Declaration} (hbody : body.Onward) :
    Tells (directive word body) := by
  rw [directive_eq]
  refine tells_headed (fun s u h => ?_) (fun _ => declares_map body id) fun s a v h d u hd => ?_
  · rw [directiveWord_eq] at h
    split at h
    · cases h
    · cases h
      rfl
  · rw [directiveWord_eq] at h
    split at h
    next hword =>
      cases h
      have hrest : u.rest <:+ s.next.rest := (hbody.bind fun a => onward_pure (some a)) hd
      exact ⟨hrest.trans s.rest_next_suffix, fun _ => hrest, fun hkind => by
        rw [Scanner.unmodified_of_ne (by rw [hword.1]; decide), hword.1] at hkind
        cases hkind⟩
    · cases h

theorem tells_aggregate {word : Keyword} {f : Bool → Reading (Option Declaration)}
    (hdeclares : ∀ a, Declares (f a)) (honward : ∀ a, (f a).Onward) :
    Tells (aggregateHead word >>= orDecline f) := by
  refine tells_headed (fun s u h => ?_) hdeclares fun s a v h d u hd => ?_
  · rw [aggregateHead_eq] at h
    split at h
    · cases h
    · cases h
      rfl
  · rw [aggregateHead_eq] at h
    split at h
    next hword =>
      cases h
      exact sees_of_unmodified (by rw [hword]; nofun) (honward _ hd)
        (by rw [hword]; nofun)
    · cases h

theorem tells_functionDeclaration : Tells functionDeclaration := by
  rw [functionDeclaration_eq]
  refine tells_headed (fun s u h => ?_) declares_functionRest fun s a v h d u hd => ?_
  · rw [functionHead_eq] at h
    split at h
    · split at h <;> cases h
    · split at h
      · cases h
      · cases h
        rfl
  · rw [functionHead_eq] at h
    split at h
    next hword =>
      split at h
      next e =>
        cases h
        obtain ⟨-, rfl⟩ := readsNext_advance e
        have hrest := (takes_functionRest _).onward hd
        exact sees_of_unmodified (by rw [hword]; decide)
          (hrest.trans (Scanner.rest_next_suffix _)) (by rw [hword]; nofun)
      · cases h
    · split at h
      next hstarts =>
        cases h
        have hkind : s.unmodified.token.kind = .symbol := by
          simp only [Scanner.startsFunction, Bool.and_eq_true, beq_iff_eq] at hstarts
          exact hstarts.1.1
        exact sees_of_unmodified (by rw [hkind]; decide) ((takes_functionRest _).onward hd)
          fun _ => takes_functionRest _ hd
      · cases h

theorem tells_variablesDeclaration : Tells variablesDeclaration := by
  rw [variablesDeclaration_eq]
  refine tells_headed (fun s u h => ?_) declares_variablesRest fun s a v h d u hd => ?_
  · rw [variablesHead_eq] at h
    split at h
    · cases h
    · split at h
      · cases h
        rfl
      · cases h
  · rw [variablesHead_eq] at h
    split at h
    · cases h
    · split at h
      · cases h
      next hhead =>
        cases h
        have hkind : s.unmodified.token.kind = .symbol :=
          Decidable.not_not.1 (not_or.1 hhead).1
        exact sees_of_unmodified (by rw [hkind]; decide) ((takes_variablesRest _).onward hd)
          fun _ => takes_variablesRest _ hd

/-- A form that starts with a keyword. -/
theorem tells_keyword {α : Type} {word : Keyword} (hword : word ≠ .privateWord)
    {p : Reading (Option α)} (hp : Declares p)
    (honward : Onward (do if (← current).kind = .keyword word then p else return none)) :
    Tells (do if (← current).kind = .keyword word then p else return none) where
  declines s u h := by
    rw [current_bind] at h
    split at h
    · exact (hp h).elim
    · cases h
      rfl
  sees s a u h := by
    have hrest := honward h
    rw [current_bind] at h
    split at h
    next hkind =>
      exact Scanner.sees_of_kind hrest (by rw [hkind]; nofun)
        (by rw [hkind]; simpa using hword) (by rw [hkind]; nofun)
    · cases h

theorem tells_namespaceHead : Tells namespaceHead where
  declines s u h := by
    rw [namespaceHead_eq] at h
    split at h
    · exact (Declares.bind (fun _ => declares_map _ id) h).elim
    · split at h
      · exact (declares_map _ id h).elim
      · cases h
        rfl
  sees s a u h := by
    have hrest := onward_of_agrees (fun _ => agrees_namespaceHead) h
    rw [namespaceHead_eq] at h
    split at h
    next hkind =>
      exact Scanner.sees_of_kind hrest (by rw [hkind]; decide) (by rw [hkind]; decide)
        (by rw [hkind]; decide)
    · split at h
      next hkind =>
        exact Scanner.sees_of_kind hrest (by rw [hkind]; decide) (by rw [hkind]; decide)
          (by rw [hkind]; decide)
      · cases h

theorem tells_typedefDeclaration : Tells typedefDeclaration :=
  tells_keyword (by decide) (declares_map typedefBody id)
    (onward_of_agrees fun _ => agrees_typedefDeclaration)

theorem tells_indexedDeclaration {word : Keyword} (hword : word ≠ .privateWord)
    (declare : IndexedVariable → Declaration) : Tells (indexedDeclaration word declare) :=
  tells_keyword hword (declares_map indexedVariable declare)
    (onward_of_agrees fun _ => agrees_indexedDeclaration word declare)

theorem tells_scriptDeclaration : Tells scriptDeclaration :=
  tells_keyword (by decide)
    (.bind fun t => .ite (declares_map (scriptTail t) id) (declares_unexpected _ t))
    (onward_of_agrees fun _ => agrees_scriptDeclaration)

end Grammar

end AcsOutline
