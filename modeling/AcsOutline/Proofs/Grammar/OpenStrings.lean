import AcsOutline.Proofs.Grammar.Blocks
import AcsOutline.Proofs.Grammar.Forms
import AcsOutline.Proofs.Scanner.OpenStrings

/-!
# Readings and strings that are cut off

How the parts of declarations meet a string that the end of input cuts off.  A token that is
checked is never such a string: the reading fails there, and says so.  Only where a value is read,
the size of an array or the default of a parameter, the string is taken as it is; then the input
ends before what has to follow (`StopsBy`).

Each reading is shown to lead from one of the three places of a scanner, before the string, up to
it or perhaps behind it, to another one (`Reading.Leads`).
-/

namespace AcsOutline

/-- Where a form of declaration may miss a cut-off string. -/
structure Lapses where
  /-- What has to follow the values, sizes and defaults of the form, as messages say it. -/
  followers : List String
  /-- Whether the form has a body or an initialiser in braces. -/
  inBody : Bool

/-- Every token is checked. -/
def Lapses.none : Lapses :=
  ⟨[], false⟩

/-- How a declaration fails in a source that ends with the cut-off string `u`. -/
inductive StopsBy (l : Lapses) (u : Token) : Fault → Scanner → Prop where
  /-- The string is not reached. -/
  | before {fault : Fault} {t : Scanner} (h : t.Precedes u) : StopsBy l u fault t
  /-- The string is reached, and it is the fault. -/
  | atString {t : Scanner} (h : t.token = u) : StopsBy l u (.openString u.span) t
  /-- The string was taken for a value, and what has to follow that is missing. -/
  | behindValue {t : Scanner} {expected : String} (heof : t.token.kind = .eof)
      (h : expected ∈ l.followers) : StopsBy l u (.endBefore expected t.token.span) t
  /-- The string stands in a body, which is never closed. -/
  | inBody {t : Scanner} {what : String} {opening : Span} (heof : t.token.kind = .eof)
      (h : l.inBody = true) : StopsBy l u (.openBody what opening) t

open Scanner (Precedes UpTo MayPass)

namespace Reading

variable {α β : Type} {l : Lapses} {u : Token} {P Q R : Scanner → Token → Prop} {s : Scanner}

/-- A reading leads from one place to another, seen from the string `u`, or stops. -/
def Leads (p : Reading α) (l : Lapses) (u : Token) (P Q : Scanner → Token → Prop) : Prop :=
  ∀ s, P s u → p.Meets s (fun _ t => Q t u) (StopsBy l u)

theorem leads_pure (a : α) (h : ∀ s, P s u → Q s u) : (pure a : Reading α).Leads l u P Q :=
  fun s hs => meets_pure (h s hs)

theorem Leads.bind {p : Reading α} {f : α → Reading β} (hp : p.Leads l u P Q)
    (hf : ∀ a, (f a).Leads l u Q R) : (p >>= f).Leads l u P R :=
  fun s hs => (hp s hs).bind fun a t ht => hf a t ht

theorem Leads.map {p : Reading α} {f : α → β} (hp : p.Leads l u P Q) : (f <$> p).Leads l u P Q :=
  fun s hs => (hp s hs).map

theorem Leads.mono {p : Reading α} (hp : p.Leads l u P Q) (h : ∀ t, Q t u → R t u) :
    p.Leads l u P R :=
  fun s hs => (hp s hs).mono (fun _ t ht => h t ht) fun _ _ he => he

theorem Meets.of_leads {p : Reading α} (hs : P s u) (hp : p.Leads l u P Q) :
    p.Meets s (fun _ t => Q t u) (StopsBy l u) :=
  hp s hs

theorem leads_current {f : Token → Reading α}
    (hf : ∀ s, P s u → (f s.token).Meets s (fun _ t => Q t u) (StopsBy l u)) :
    (current >>= f).Leads l u P Q :=
  hf

theorem leads_gather {round : Reading (List α × Bool)} (h : round.Consumes)
    (hround : round.Leads l u P P) : (gather round h).Leads l u P P :=
  fun _ hs => meets_gather h hround hs

theorem leads_braceDepth {f : Int → Reading α} (hf : ∀ depth, (f depth).Leads l u P Q) :
    (braceDepth >>= f).Leads l u P Q :=
  fun s hs => hf s.braces s hs

/-- A look at the token that follows. -/
theorem leads_peek {f : Token → Reading α}
    (hf : ∀ s, P s u → (f s.next.token).Meets s (fun _ t => Q t u) (StopsBy l u)) :
    (peek >>= f).Leads l u P Q := by
  intro s hs
  rw [Meets, peek_bind]
  exact hf s hs

/-- A look at the two tokens that follow. -/
theorem leads_peekTwo {f : Token × Token → Reading α}
    (hf : ∀ s, P s u →
      (f (s.next.token, s.next.next.token)).Meets s (fun _ t => Q t u) (StopsBy l u)) :
    (peekTwo >>= f).Leads l u P Q := by
  intro s hs
  rw [Meets, peekTwo_bind]
  exact hf s hs

variable (hu : u.isUnclosedString = true)

include hu

theorem leads_next {f : Token → Reading α}
    (hf : ∀ s, s.UpTo u → (f s.token).Meets s (fun _ t => Q t u) (StopsBy l u)) :
    (next >>= f).Leads l u Precedes Q :=
  fun s hs => hf s.next (hs.next hu)

theorem leads_next_pure (a : α) : (do let _ ← next; pure a : Reading α).Leads l u Precedes UpTo :=
  leads_next hu fun _ hs => meets_pure hs

theorem leads_advance {f : Token → Reading α}
    (hf : ∀ s, s.UpTo u → (f s.token).Meets s (fun _ t => Q t u) (StopsBy l u)) :
    (advance >>= f).Leads l u Precedes Q := by
  intro s hs
  rw [Meets, advance_bind, if_neg (hs.next_ne_eof hu)]
  exact hf s.next (hs.next hu)

/-- **A string that does not fit is the fault**, and so is the end of input behind a value. -/
theorem stopsBy_unexpected {expected : String} (hs : s.MayPass u)
    (hexpected : expected ∈ l.followers ∨ s.UpTo u) :
    StopsBy l u (.unexpected expected s.token) s := by
  -- behind the string the token is the end of input, which is only met after a value
  have hupTo : s.UpTo u → StopsBy l u (.unexpected expected s.token) s := by
    rintro (hs | ⟨htoken, -⟩)
    · exact .before hs
    · rw [Fault.unexpected, htoken, if_pos hu]
      exact .atString htoken
  rcases hexpected with hexpected | hs
  · rcases hs with hs | heof
    · exact hupTo hs
    · have hclosed : ¬s.token.isUnclosedString = true := by
        intro hopen
        rw [Token.kind_of_unclosed hopen] at heof
        cases heof
      rw [Fault.unexpected, if_neg hclosed, if_pos heof]
      exact .behindValue heof hexpected
  · exact hupTo hs

theorem meets_unexpected {Q : α → Scanner → Prop} {expected : String} (hs : s.MayPass u)
    (hexpected : expected ∈ l.followers ∨ s.UpTo u) :
    (unexpected expected s.token : Reading α).Meets s Q (StopsBy l u) :=
  meets_throw (stopsBy_unexpected hu hs hexpected)

/-- **A token that is accepted is not the string.** -/
theorem meets_check {kind : TokenKind} {expected : String} (hs : s.UpTo u) :
    (check s.token kind expected).Meets s (fun _ t => t.Precedes u) (StopsBy l u) := by
  refine .ite (fun hgood => meets_pure ?_) fun _ => meets_unexpected hu hs.mayPass (Or.inr hs)
  rcases hs with hs | ⟨htoken, -⟩
  · exact hs
  · rw [htoken, hu] at hgood
    cases hgood.2

theorem leads_expect {kind : TokenKind} {expected : String} :
    (expect kind expected).Leads l u Precedes Precedes :=
  leads_next hu fun _ hs => meets_check hu hs

end Reading

namespace Grammar

open Reading

variable {α : Type} {l : Lapses} {u : Token} (hu : u.isUnclosedString = true)

include hu

/-! ## Parts that declarations share -/

theorem leads_takeName : takeName.Leads l u UpTo UpTo :=
  leads_current fun _ hs => .ite
    (fun hsymbol => .of_leads (hs.precedes hu hsymbol (by decide)) (leads_next_pure hu _))
    fun _ => meets_pure hs

theorem leads_takeSemicolon : takeSemicolon.Leads l u Precedes Precedes := by
  refine leads_peek fun s hs => .ite (fun hsemicolon => ?_) fun _ => meets_pure hs
  rw [Meets, advance_bind, if_neg (hs.next_ne_eof hu)]
  exact (hs.next hu).precedes hu hsemicolon (by decide)

theorem leads_bracketSize (hsize : "`]`" ∈ l.followers) :
    bracketSize.Leads l u Precedes Precedes := by
  refine leads_advance hu fun s hs => .ite
    (fun hclose => meets_pure (hs.precedes hu hclose (by decide))) fun _ => ?_
  -- the size itself is not checked, but the bracket behind it is
  refine Meets.bind (Q := fun _ t => t.Precedes u) ?_ fun _ _ ht => meets_pure ht
  have hnext : s.next.MayPass u := hs.next hu
  show (check s.next.token .rbracket "`]`").Meets s.next _ _
  refine .ite (fun hgood => meets_pure ?_) fun _ =>
    meets_unexpected hu hnext (Or.inl hsize)
  exact hnext.precedes hu hgood.1 (by decide) (by decide)

theorem leads_takeEmptyParameters : takeEmptyParameters.Leads l u Precedes Precedes := by
  refine leads_peekTwo fun s hs => ?_
  dsimp only
  have hnext : s.next.UpTo u := hs.next hu
  refine .ite (fun hclose => ?_) fun _ => .ite (fun hvoid => ?_) fun _ => meets_pure hs
  · exact hnext.precedes hu hclose (by decide)
  · have hsymbol : s.next.token.kind = .symbol :=
      beq_iff_eq.1 ((Bool.and_eq_true _ _).mp hvoid.1).1
    have hprecedes := hnext.precedes hu hsymbol (by decide)
    exact (hprecedes.next hu).precedes hu hvoid.2 (by decide)

/-- What follows a parameter is checked; its default may be the string. -/
theorem leads_parameter {Q : Scanner → Token → Prop} {tail : String → Reading α}
    (h : ∀ type, (tail type).Leads l u Precedes Q)
    (hQ : ∀ s, Q s u → s.UpTo u ∨ (s.MayPass u ∧ "`,` or `)`" ∈ l.followers)) :
    (parameter tail).Leads l u Precedes Precedes := by
  refine (leads_expect hu).bind fun type => (h _).bind fun p => leads_current fun s hs => ?_
  have hmay : s.MayPass u := (hQ s hs).elim Scanner.UpTo.mayPass (·.1)
  split
  next hclose => exact meets_pure (hmay.precedes hu hclose (by decide) (by decide))
  next hcomma => exact meets_pure (hmay.precedes hu hcomma (by decide) (by decide))
  · exact meets_unexpected hu hmay ((hQ s hs).symm.imp_left (·.2))

theorem leads_parameters {Q : Scanner → Token → Prop} {tail : String → Reading α}
    (hw : ∀ type, (tail type).Within) (h : ∀ type, (tail type).Leads l u Precedes Q)
    (hQ : ∀ s, Q s u → s.UpTo u ∨ (s.MayPass u ∧ "`,` or `)`" ∈ l.followers)) :
    (parameters tail hw).Leads l u Precedes Precedes :=
  (leads_takeEmptyParameters hu).bind fun _ _ hs => .ite (fun _ => meets_pure hs)
    fun _ => .of_leads hs (leads_gather _ (leads_parameter hu h hQ))

/-! ## Bodies -/

/-- A body ends before the string, whose token closes nothing, or the input ends in it. -/
theorem leads_skipTo (hbody : l.inBody = true) (depth : Int) (what : String) (opening : Span) :
    (skipTo depth what opening).Leads l u Precedes Precedes := by
  intro s hs
  -- at the string a brace is still open, and no token is left that closes it
  refine meets_loop (I := fun _ t => t.Precedes u ∨ (t.UpTo u ∧ depth < t.braces)) _
    (fun _ t ht => ?_) (Or.inl hs)
  show (if t.braces ≤ depth then _ else _ : Reading (Round Unit Unit)).Meets t _ _
  refine .ite (fun hdone => meets_pure ?_) fun hopen => ?_
  · exact ht.resolve_right fun h => by omega
  · have hnext : t.next.MayPass u := ht.elim (fun h => (h.next hu).mayPass) fun h => h.1.next hu
    show (if t.next.token.kind = .eof then _ else _ : Reading (Round Unit Unit)).Meets t.next _ _
    refine .ite (fun heof => meets_throw (.inBody heof hbody)) fun hne => meets_pure ?_
    rcases hnext.resolve_right hne with hnext | ⟨htoken, hrest⟩
    · exact Or.inl hnext
    · refine Or.inr ⟨Or.inr ⟨htoken, hrest⟩, ?_⟩
      have hstep : Scanner.braceStep t.next.token.kind = 0 := by
        rw [htoken, Token.kind_of_unclosed hu]
        rfl
      rw [Scanner.braces_next, hstep]
      omega

theorem leads_arrayInitializer (hbody : l.inBody = true) :
    arrayInitializer.Leads l u Precedes Precedes :=
  leads_braceDepth fun _ => (leads_expect hu).bind fun _ => (leads_skipTo hu hbody _ _ _).bind
    fun _ => leads_current fun _ hs => hs

/-- The values of a struct end before the string, or the input ends among them. -/
theorem meets_recordInitializer (hbody : l.inBody = true) {s : Scanner} (hs : s.Precedes u)
    (hopen : s.next.token.kind = .lbrace) :
    recordInitializer.Meets s (fun _ t => t.Precedes u) (StopsBy l u) := by
  have hstart : s.braces < s.next.braces := by
    rw [Scanner.braces_next, hopen]
    exact Int.lt_succ s.braces
  show (advance >>= fun opening => loop (recordRound s.braces opening.span) _ []).Meets s _ _
  rw [Meets, advance_bind, if_neg (hs.next_ne_eof hu)]
  -- between the braces they are deeper than before
  refine meets_loop (I := fun _ t => t.UpTo u ∧ s.braces < t.braces) _ (fun found t ht => ?_)
    ⟨hs.next hu, hstart⟩
  obtain ⟨ht, hdeep⟩ := ht
  have hstep := Scanner.neg_one_le_braceStep t.next.token.kind
  have hbraces := t.braces_next
  show (if t.next.token.kind = .eof then _ else _ :
    Reading (Round (List String) (List String))).Meets t.next _ _
  refine .ite (fun heof => ?_) fun hne => ?_
  · have hsame : s.braces < t.next.braces := by
      rw [heof] at hbraces
      rw [hbraces, show t.braces + Scanner.braceStep .eof = t.braces from Int.add_zero _]
      exact hdeep
    refine Meets.bind (Q := fun _ _ => False) ?_ fun _ _ h => h.elim
    rw [Meets, skipTo_of_eof _ _ hsame heof]
    exact .inBody heof hbody
  · have hnext : t.next.UpTo u := (ht.next hu).resolve_right hne
    show (if t.next.braces = s.braces then _ else _ :
      Reading (Round (List String) (List String))).Meets t.next _ _
    refine .ite (fun hback => meets_pure ?_) fun hdeeper => .ite (fun _ => meets_pure ?_) fun _ =>
      meets_pure ?_
    · have hclose : t.next.token.kind = .rbrace := Scanner.braceStep_neg (by omega)
      exact hnext.precedes hu hclose (by decide)
    · exact ⟨hnext, by omega⟩
    · exact ⟨hnext, by omega⟩

/-! ## Values -/

/-- **A value takes the string as it is**, which is then the last token of the value; it does not
fail. -/
theorem meets_value {s : Scanner} (hs : s.UpTo u) :
    Value.read.Meets s (fun v t => t.Precedes u ∨
      (t.token.kind = .eof ∧ ∃ ts, v = .ofRun (ts ++ [u]))) fun _ _ => False := by
  -- `ts` are the tokens that the value has taken so far
  refine meets_loop (I := fun nest t => ∃ ts, nest = Value.Nest.empty.takeAll ts ∧
    (t.UpTo u ∨ (t.token.kind = .eof ∧ ∃ before, ts = before ++ [u]))) _
    (fun nest t ht => ?_) ⟨[], rfl, Or.inl hs⟩
  obtain ⟨ts, rfl, ht⟩ := ht
  rw [Meets, Value.readPiece_eq]
  by_cases hends : Value.endsValue t.token.kind = true
  · rw [if_pos hends]
    rcases ht with ht | ⟨heof, before, rfl⟩
    · refine Or.inl (ht.precedes_of_ne hu fun hstring => ?_)
      rw [hstring] at hends
      cases hends
    · exact Or.inr ⟨heof, before, rfl⟩
  · have hupTo : t.UpTo u := ht.resolve_right fun h => hends (by rw [h.1]; rfl)
    have hgoes : ¬(t.token.kind = .lparen ∧ t.next.token.kind = .eof) := by
      rintro ⟨hopen, heof⟩
      exact (hupTo.precedes hu hopen (by decide)).next_ne_eof hu heof
    rw [if_neg hends, if_neg hgoes]
    have htaken : (Value.Nest.empty.takeAll ts).take t.token.kind t.token.text =
        Value.Nest.empty.takeAll (ts ++ [t.token]) := by
      rw [Value.Nest.takeAll, Value.Nest.takeAll, List.foldl_append]
      rfl
    refine ⟨ts ++ [t.token], htaken, ?_⟩
    rcases hupTo with hprecedes | ⟨htoken, hrest⟩
    · exact Or.inl (hprecedes.next hu)
    · exact Or.inr ⟨Scanner.kind_next_of_rest_nil hrest, ts, by rw [htoken]⟩

theorem leads_value : Value.read.Leads l u UpTo MayPass :=
  fun _ hs => (meets_value hu hs).mono
    (fun _ _ ht => ht.imp Scanner.Precedes.upTo (·.1)) fun _ _ h => h.elim

/-! ## Enums and structs -/

theorem leads_takeUnderlying : takeUnderlying.Leads l u UpTo UpTo :=
  leads_current fun _ hs => .ite
    (fun hcolon => .of_leads (hs.precedes hu hcolon (by decide))
      ((leads_expect hu).bind fun _ => leads_next_pure hu _))
    fun _ => meets_pure hs

theorem leads_memberValue : memberValue.Leads l u Precedes MayPass :=
  leads_next hu fun _ hs => .ite
    (fun hequals => .of_leads (hs.precedes hu hequals (by decide))
      (leads_advance hu fun _ ht => .of_leads ht (leads_value hu).map))
    fun _ => meets_pure hs.mayPass

theorem leads_enumMemberTail (hvalue : "`,` or `\x7d` after the enum member" ∈ l.followers)
    (name : Token) : (enumMemberTail name).Leads l u Precedes Precedes := by
  refine (leads_memberValue hu).bind fun value => leads_current fun s hs => ?_
  split
  next hclose =>
    exact meets_pure (hs.precedes hu hclose (by decide) (by decide))
  next hcomma =>
    exact meets_pure (hs.precedes hu hcomma (by decide) (by decide))
  · exact meets_unexpected hu hs (Or.inl hvalue)

theorem leads_enumMember (hvalue : "`,` or `\x7d` after the enum member" ∈ l.followers) :
    enumMember.Leads l u Precedes Precedes :=
  leads_next hu fun _ hs => .ite
    (fun hclose => meets_pure (hs.precedes hu hclose (by decide)))
    fun _ => (meets_check hu hs).bind fun name _ ht =>
      .of_leads ht (leads_enumMemberTail hu hvalue name)

theorem leads_memberSize (hsize : "`]`" ∈ l.followers) : memberSize.Leads l u Precedes UpTo :=
  leads_next hu fun _ hs => .ite
    (fun hopen => .of_leads (hs.precedes hu hopen (by decide))
      ((leads_bracketSize hu hsize).bind fun size => leads_next_pure hu size))
    fun _ => meets_pure hs

theorem leads_structName (hsize : "`]`" ∈ l.followers) (type : String) :
    (structName type).Leads l u Precedes Precedes := by
  refine (leads_expect hu).bind fun name => (leads_memberSize hu hsize).bind fun size =>
    leads_current fun s hs => ?_
  split
  next hcomma => exact meets_pure (hs.precedes hu hcomma (by decide))
  next hsemicolon => exact meets_pure (hs.precedes hu hsemicolon (by decide))
  · exact meets_unexpected hu hs.mayPass (Or.inr hs)

theorem leads_structMembers (hsize : "`]`" ∈ l.followers) :
    structMembers.Leads l u Precedes Precedes :=
  leads_next hu fun _ hs => .ite
    (fun hclose => meets_pure (hs.precedes hu hclose (by decide)))
    fun _ => (meets_check hu hs).bind fun _ _ ht =>
      .of_leads ht <| (leads_gather _ (leads_structName hu hsize _)).bind fun _ =>
        leads_pure _ fun _ h => h

theorem leads_instanceName : instanceName.Leads l u Precedes Precedes := by
  refine (leads_expect hu).bind fun name => leads_next hu fun s hs => ?_
  split
  next hcomma => exact meets_pure (hs.precedes hu hcomma (by decide))
  next hsemicolon => exact meets_pure (hs.precedes hu hsemicolon (by decide))
  · exact meets_unexpected hu hs.mayPass (Or.inr hs)

theorem leads_structInstances : structInstances.Leads l u Precedes Precedes := by
  refine leads_peekTwo fun s hs => ?_
  dsimp only
  refine .ite (fun hsemicolon => ?_) fun _ => .ite
    (fun _ => .of_leads hs (leads_gather _ (leads_instanceName hu))) fun _ => meets_pure hs
  rw [Meets, advance_bind, if_neg (hs.next_ne_eof hu)]
  exact (hs.next hu).precedes hu hsemicolon (by decide)

theorem leads_enumRest (hvalue : "`,` or `\x7d` after the enum member" ∈ l.followers)
    (isPrivate : Bool) : (enumRest isPrivate).Leads l u Precedes Precedes :=
  leads_next hu fun _ hs => .of_leads hs <|
    (leads_takeName hu).bind fun _ => (leads_takeUnderlying hu).bind fun _ =>
      leads_current fun _ ht => (meets_check hu ht).bind fun _ _ hv => .of_leads hv <|
        (leads_gather _ (leads_enumMember hu hvalue)).bind fun _ =>
          (leads_takeSemicolon hu).bind fun _ => leads_pure _ fun _ h => h

theorem leads_structRest (hsize : "`]`" ∈ l.followers) (isPrivate : Bool) :
    (structRest isPrivate).Leads l u Precedes Precedes :=
  leads_next hu fun _ hs => .of_leads hs <|
    (leads_takeName hu).bind fun _ => leads_current fun _ ht =>
      (meets_check hu ht).bind fun _ _ hv => .of_leads hv <|
        (leads_gather _ (leads_structMembers hu hsize)).bind fun _ =>
          (leads_structInstances hu).bind fun _ => leads_pure _ fun _ h => h

/-! ## Functions and scripts -/

/-- A default is not checked. -/
theorem leads_parameterDefault : parameterDefault.Leads l u Precedes MayPass :=
  leads_next hu fun _ hs => .ite
    (fun hequals => .of_leads (hs.precedes hu hequals (by decide))
      (leads_advance hu fun _ ht => ht.next hu))
    fun _ => meets_pure hs.mayPass

theorem leads_functionParameter (type : String) :
    (functionParameter type).Leads l u Precedes MayPass :=
  (leads_expect hu).bind fun _ => (leads_parameterDefault hu).bind fun _ =>
    leads_pure _ fun _ h => h

theorem leads_takeClientside : takeClientside.Leads l u Precedes UpTo :=
  leads_next hu fun s hs => .ite
    (fun hword => by
      have hsymbol : s.token.kind = .symbol := beq_iff_eq.1 ((Bool.and_eq_true _ _).mp hword).1
      exact .of_leads (hs.precedes hu hsymbol (by decide)) (leads_next_pure hu _))
    fun _ => meets_pure hs

theorem leads_functionBody (hbody : l.inBody = true) (depth : Int) :
    (functionBody depth).Leads l u UpTo Precedes := by
  refine leads_current fun s hs => ?_
  split
  next hsemicolon => exact meets_pure (hs.precedes hu hsemicolon (by decide))
  next hopen => exact .of_leads (hs.precedes hu hopen (by decide)) (leads_skipTo hu hbody _ _ _)
  · exact meets_unexpected hu hs.mayPass (Or.inr hs)

theorem leads_functionSignature (hdefault : "`,` or `)`" ∈ l.followers) (isPrivate : Bool) :
    (functionSignature isPrivate).Leads l u UpTo UpTo :=
  leads_current fun _ hs => (meets_check hu hs).bind fun _ _ ht => .of_leads ht <|
    (leads_expect hu).bind fun _ => (leads_expect hu).bind fun _ =>
      (leads_parameters hu _ (leads_functionParameter hu) fun _ hs =>
        Or.inr ⟨hs, hdefault⟩).bind fun _ => leads_braceDepth fun _ =>
          (leads_takeClientside hu).bind fun _ => leads_pure _ fun _ h => h

theorem leads_functionRest (hdefault : "`,` or `)`" ∈ l.followers) (hbody : l.inBody = true)
    (isPrivate : Bool) : (functionRest isPrivate).Leads l u UpTo Precedes :=
  (leads_functionSignature hu hdefault isPrivate).bind fun _ =>
    (leads_functionBody hu hbody _).bind fun _ => leads_pure _ fun _ h => h

theorem leads_scriptParameter (type : String) : (scriptParameter type).Leads l u Precedes UpTo :=
  leads_next hu fun _ hs => .of_leads hs <|
    (leads_takeName hu).bind fun _ => leads_pure _ fun _ h => h

theorem leads_modifiers (depth : Int) : (modifiers depth).Leads l u UpTo Precedes := by
  refine fun s hs => meets_loop (I := fun _ t => t.UpTo u) _ (fun state t ht => ?_) hs
  show (if t.token.kind = .lbrace then _ else _ :
    Reading (Round (Modifiers × Int) (Modifiers × Int))).Meets t _ _
  refine .ite (fun hopen => meets_pure (ht.precedes hu hopen (by decide))) fun _ =>
    .ite (fun hsymbol => ?_) fun _ => meets_unexpected hu ht.mayPass (Or.inr ht)
  have hprecedes : t.Precedes u := ht.precedes hu hsymbol (by decide)
  refine Meets.bind (Q := fun _ v => v.Precedes u) ?_ fun m' _ hv => hv.next hu
  cases h : state.1.add t.token with
  | ok m' => exact hprecedes
  | error fault => exact .before hprecedes

theorem leads_scriptParameters : scriptParameters.Leads l u Precedes UpTo :=
  leads_braceDepth fun _ => leads_next hu fun _ hs => .ite
    (fun hopen => .of_leads (hs.precedes hu hopen (by decide))
      ((leads_parameters hu _ (leads_scriptParameter hu) fun _ hs => Or.inl hs).bind fun _ =>
        leads_braceDepth fun _ => leads_next_pure hu _))
    fun _ => meets_pure hs

theorem leads_scriptTail (hbody : l.inBody = true) (name : Token) :
    (scriptTail name).Leads l u Precedes Precedes :=
  (leads_scriptParameters hu).bind fun _ => (leads_modifiers hu _).bind fun _ =>
    leads_current fun _ hs => .of_leads hs <|
      (leads_skipTo hu hbody _ _ _).bind fun _ => leads_pure _ fun _ h => h

/-! ## Type definitions and variables -/

theorem leads_bareType (type : String) : (bareType type).Leads l u Precedes UpTo :=
  leads_next_pure hu _

theorem leads_endTypedef (t : Typedef) : (endTypedef t).Leads l u Precedes Precedes :=
  (leads_expect hu).bind fun _ => leads_pure _ fun _ h => h

theorem leads_typedefBody (hsize : "`]`" ∈ l.followers) :
    typedefBody.Leads l u Precedes Precedes := by
  refine (leads_expect hu).bind fun type => (leads_expect hu).bind fun name =>
    leads_next hu fun s hs => ?_
  split
  next hsemicolon => exact meets_pure (hs.precedes hu hsemicolon (by decide))
  next hopen =>
    exact .of_leads (hs.precedes hu hopen (by decide))
      ((leads_bracketSize hu hsize).bind fun _ => leads_endTypedef hu _)
  next hopen =>
    exact .of_leads (hs.precedes hu hopen (by decide))
      ((leads_parameters hu _ (leads_bareType hu) fun _ hs => Or.inl hs).bind fun _ =>
        leads_endTypedef hu _)
  · exact meets_unexpected hu hs.mayPass (Or.inr hs)

theorem leads_takeEmptyBrackets : takeEmptyBrackets.Leads l u UpTo UpTo :=
  leads_current fun _ hs => .ite
    (fun hopen => .of_leads (hs.precedes hu hopen (by decide))
      ((leads_expect hu).bind fun _ => leads_next_pure hu _))
    fun _ => meets_pure hs

theorem leads_indexedVariable : indexedVariable.Leads l u Precedes Precedes :=
  (leads_expect hu).bind fun _ => (leads_expect hu).bind fun _ => (leads_expect hu).bind fun _ =>
    (leads_expect hu).bind fun _ => leads_next hu fun _ hs => .of_leads hs <|
      (leads_takeEmptyBrackets hu).bind fun _ => leads_current fun _ ht =>
        (meets_check hu ht).bind fun _ _ hv => meets_pure hv

theorem leads_arrayTail (hsize : "`]`" ∈ l.followers) (hbody : l.inBody = true) (name : String) :
    (arrayTail name).Leads l u Precedes UpTo :=
  (leads_bracketSize hu hsize).bind fun _ => leads_next hu fun _ hs => .ite
    (fun hequals => .of_leads (hs.precedes hu hequals (by decide))
      ((leads_arrayInitializer hu hbody).bind fun _ => leads_next_pure hu _))
    fun _ => meets_pure hs

theorem leads_initialValue (hbody : l.inBody = true) (name : String) :
    (initialValue name).Leads l u Precedes MayPass :=
  leads_peek fun _ hs => .ite
    (fun hopen => (meets_recordInitializer hu hbody hs hopen).bind fun _ _ ht =>
      .of_leads ht ((leads_next_pure hu _).mono fun _ hv => hv.mayPass))
    fun _ => .of_leads hs (leads_advance hu fun _ ht => .of_leads ht <|
      (leads_value hu).bind fun _ => leads_pure _ fun _ h => h)

theorem leads_variableTail (hsize : "`]`" ∈ l.followers) (hbody : l.inBody = true)
    (name : String) : (variableTail name).Leads l u Precedes MayPass :=
  leads_next hu fun _ hs => .ite
    (fun hopen => .of_leads (hs.precedes hu hopen (by decide))
      ((leads_arrayTail hu hsize hbody name).mono fun _ ht => ht.mayPass))
    fun _ => .ite
      (fun hequals => .of_leads (hs.precedes hu hequals (by decide))
        (leads_initialValue hu hbody name))
      fun _ => meets_pure hs.mayPass

theorem leads_variableItem (hvalue : "`,` or `;` after the variable" ∈ l.followers)
    (hsize : "`]`" ∈ l.followers) (hbody : l.inBody = true) :
    variableItem.Leads l u Precedes Precedes := by
  refine (leads_expect hu).bind fun name => (leads_variableTail hu hsize hbody _).bind fun v =>
    leads_current fun s hs => ?_
  split
  next hsemicolon =>
    exact meets_pure (hs.precedes hu hsemicolon (by decide) (by decide))
  next hcomma =>
    exact meets_pure (hs.precedes hu hcomma (by decide) (by decide))
  · exact meets_unexpected hu hs (Or.inl hvalue)

theorem leads_variablesRest (hvalue : "`,` or `;` after the variable" ∈ l.followers)
    (hsize : "`]`" ∈ l.followers) (hbody : l.inBody = true) (isPrivate : Bool) :
    (variablesRest isPrivate).Leads l u Precedes Precedes :=
  leads_current fun _ hs => .of_leads hs <|
    (leads_gather _ (leads_variableItem hu hvalue hsize hbody)).bind fun _ =>
      leads_pure _ fun _ h => h

end Grammar

end AcsOutline
