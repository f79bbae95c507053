import AcsOutline.Proofs.Grammar.OpenStrings
import AcsOutline.Proofs.Scanner.Tokens

/-!
# Declarations and strings that are cut off

What each form of declaration comes to in a source that ends with a cut-off string, and from that
what recognition comes to (`settles_recognize`).  A declaration is read before the string, or it
fails (`StopsBy`); only the value of a define needs nothing after it, so that a define may end with
the string (`Declaration.EndsWith`).
-/

namespace AcsOutline

open Scanner (Precedes UpTo)

/-- A define whose value ends with a string. -/
inductive Declaration.EndsWith (u : Token) : Declaration → Prop where
  | define (key : String) (ts : List Token) : EndsWith u (.define ⟨key, .ofRun (ts ++ [u])⟩)
  | libDefine (key : String) (ts : List Token) :
      EndsWith u (.libDefine ⟨key, .ofRun (ts ++ [u])⟩)

namespace Grammar

open Reading

variable {l : Lapses} {u : Token} (hu : u.isUnclosedString = true)

include hu

/-! ## Namespaces -/

/-- What a namespace head comes to: there is none, or it is read, or it stops with a fault. -/
def NamespaceHead.Settles (l : Lapses) (u : Token) (head : Option NamespaceHead) (t : Scanner) :
    Prop :=
  match head with
  | none => t.UpTo u
  | some head => match head.fault with
    | none => t.Precedes u
    | some fault => StopsBy l u fault t

theorem meets_namespaceRound {s : Scanner} (hs : s.Precedes u) (isStrict : Bool)
    (keys : List NamespaceKey) :
    (namespaceRound isStrict keys).Meets s (Round.Keeps (fun _ t => t.Precedes u)
      fun head t => NamespaceHead.Settles l u (some head) t) (StopsBy l u) := by
  have hname : s.next.UpTo u := hs.next hu
  show (if s.next.token.kind = .symbol then _ else _ :
    Reading (Round (List NamespaceKey) NamespaceHead)).Meets s.next _ _
  refine .ite (fun hsymbol => ?_) fun _ =>
    meets_pure (stopsBy_unexpected hu hname.mayPass (Or.inr hname))
  have hafter : s.next.next.UpTo u := (hname.precedes hu hsymbol (by decide)).next hu
  show (if s.next.next.token.kind = .dot then _ else _ :
    Reading (Round (List NamespaceKey) NamespaceHead)).Meets s.next.next _ _
  refine .ite (fun hdot => meets_pure (hafter.precedes hu hdot (by decide))) fun _ =>
    .ite (fun hopen => meets_pure (hafter.precedes hu hopen (by decide))) fun _ =>
      meets_pure (stopsBy_unexpected hu hafter.mayPass (Or.inr hafter))

theorem meets_namespaceNames {s : Scanner} (hs : s.Precedes u) (isStrict : Bool) :
    (namespaceNames isStrict).Meets s (fun head t => NamespaceHead.Settles l u (some head) t)
      (StopsBy l u) := by
  rw [Meets, namespaceNames, peek_bind]
  refine Meets.ite (s := s) (fun hopen => ?_) fun _ =>
    meets_loop _ (fun keys t ht => meets_namespaceRound hu ht isStrict keys) hs
  exact (hs.next hu).precedes hu hopen (by decide)

theorem meets_namespaceHead {s : Scanner} (hs : s.UpTo u) :
    namespaceHead.Meets s (NamespaceHead.Settles l u) (StopsBy l u) := by
  have hkeyword : ∀ {word : Keyword}, s.token.kind = .keyword word → s.Precedes u := fun h =>
    hs.precedes_of_keyword hu h
  rw [Meets, namespaceHead_eq]
  by_cases hstrict : s.token.kind = .keyword .strictWord
  · rw [if_pos hstrict]
    exact Meets.bind (leads_expect hu _ (hkeyword hstrict)) fun _ _ ht =>
      (meets_namespaceNames hu ht true).map
  · rw [if_neg hstrict]
    by_cases hnamespace : s.token.kind = .keyword .namespaceWord
    · rw [if_pos hnamespace]
      exact (meets_namespaceNames hu (hkeyword hnamespace) false).map
    · rw [if_neg hnamespace]
      exact hs

/-! ## Forms -/

/-- What a form comes to: it declines, or it is read before the string, or it is a define that ends
with the string. -/
def Settles (u : Token) (declaration : Option Declaration) (t : Scanner) : Prop :=
  match declaration with
  | none => t.UpTo u
  | some d => t.Precedes u ∨ d.EndsWith u

omit hu in
theorem settles_of_precedes {t : Scanner} (ht : t.Precedes u) (declaration : Option Declaration) :
    Settles u declaration t := by
  cases declaration with
  | none => exact ht.upTo
  | some d => exact Or.inl ht

omit hu in
/-- A form with a head that is tried. -/
theorem meets_headed {β : Type} {head : Reading (Option β)}
    {f : β → Reading (Option Declaration)} {P : Scanner → Token → Prop} {s : Scanner}
    (hhead : head.Meets s (fun a t => match a with
      | none => t.UpTo u
      | some _ => P t u) (StopsBy l u))
    (hf : ∀ a t, P t u → (f a).Meets t (Settles u) (StopsBy l u)) :
    (head >>= orDecline f).Meets s (Settles u) (StopsBy l u) := by
  refine Meets.bind hhead fun a t ht => ?_
  cases a with
  | none => exact ht
  | some a => exact hf a t ht

omit hu in
theorem settles_of_leads {p : Reading (Option Declaration)} {P : Scanner → Token → Prop}
    (hp : p.Leads l u P Precedes) {s : Scanner} (hs : P s u) :
    p.Meets s (Settles u) (StopsBy l u) :=
  (hp s hs).mono (fun a _ ht => settles_of_precedes ht a) fun _ _ he => he

theorem upTo_unmodified {s : Scanner} (hs : s.UpTo u) : s.unmodified.UpTo u := by
  by_cases h : s.token.kind = .keyword .privateWord
  · rw [Scanner.unmodified_of_eq h]
    exact (hs.precedes_of_keyword hu h).next hu
  · rwa [Scanner.unmodified_of_ne h]

theorem meets_aggregate (word : Keyword) {f : Bool → Reading (Option Declaration)}
    (hf : ∀ isPrivate, (f isPrivate).Leads l u Precedes Precedes) {s : Scanner} (hs : s.UpTo u) :
    (aggregateHead word >>= orDecline f).Meets s (Settles u) (StopsBy l u) := by
  refine meets_headed (P := Precedes) ?_ fun isPrivate _ ht => settles_of_leads (hf isPrivate) ht
  rw [Meets, aggregateHead_eq]
  by_cases hword : s.unmodified.token.kind = .keyword word
  · rw [if_pos hword]
    exact (upTo_unmodified hu hs).precedes_of_keyword hu hword
  · rw [if_neg hword]
    exact hs

theorem meets_functionDeclaration (hdefault : "`,` or `)`" ∈ l.followers)
    (hbody : l.inBody = true) {s : Scanner} (hs : s.UpTo u) :
    functionDeclaration.Meets s (Settles u) (StopsBy l u) := by
  rw [functionDeclaration_eq]
  -- a head without a keyword reads nothing, so that the string may come right behind it
  refine meets_headed (P := UpTo) ?_ fun isPrivate _ ht =>
    settles_of_leads (leads_functionRest hu hdefault hbody isPrivate) ht
  have hunmodified := upTo_unmodified hu hs
  rw [Meets, functionHead_eq]
  by_cases hword : s.unmodified.token.kind = .keyword .functionWord
  · have hprecedes := hunmodified.precedes_of_keyword hu hword
    rw [if_pos hword, advance, if_neg (hprecedes.next_ne_eof hu)]
    exact hprecedes.next hu
  · rw [if_neg hword]
    by_cases hfunction : s.unmodified.startsFunction = true
    · rw [if_pos hfunction]
      exact hunmodified
    · rw [if_neg hfunction]
      exact hs

theorem meets_variablesDeclaration (hvalue : "`,` or `;` after the variable" ∈ l.followers)
    (hsize : "`]`" ∈ l.followers) (hbody : l.inBody = true) {s : Scanner} (hs : s.UpTo u) :
    variablesDeclaration.Meets s (Settles u) (StopsBy l u) := by
  rw [variablesDeclaration_eq]
  refine meets_headed (P := Precedes) ?_ fun isPrivate _ ht =>
    settles_of_leads (leads_variablesRest hu hvalue hsize hbody isPrivate) ht
  rw [Meets, variablesHead_eq]
  by_cases hprivate : s.isPrivate = true ∧ s.unmodified.token.kind ≠ .symbol
  · rw [if_pos hprivate]
    have hword : s.token.kind = .keyword .privateWord := beq_iff_eq.1 hprivate.1
    exact .before (hs.precedes_of_keyword hu hword)
  · rw [if_neg hprivate]
    by_cases hdeclines : s.unmodified.token.kind ≠ .symbol ∨ s.unmodified.startsFunction = true
    · rw [if_pos hdeclines]
      exact hs
    · rw [if_neg hdeclines]
      have hsymbol : s.unmodified.token.kind = .symbol := by
        rw [not_or, Decidable.not_not] at hdeclines
        exact hdeclines.1
      exact (upTo_unmodified hu hs).precedes hu hsymbol (by decide)

/-- A form that starts with a keyword of its own. -/
theorem meets_keyword {word : Keyword} {p : Reading (Option Declaration)}
    (hp : p.Leads l u Precedes Precedes) {s : Scanner} (hs : s.UpTo u) :
    (do if (← current).kind = TokenKind.keyword word then p else return none : Reading _).Meets s
      (Settles u) (StopsBy l u) :=
  Meets.ite (s := s)
    (fun hword => settles_of_leads hp (hs.precedes_of_keyword hu hword))
    fun _ => meets_pure hs

theorem meets_scriptDeclaration (hbody : l.inBody = true) {s : Scanner} (hs : s.UpTo u) :
    scriptDeclaration.Meets s (Settles u) (StopsBy l u) := by
  refine meets_keyword hu (leads_next hu fun t ht => ?_) hs
  refine .ite (fun hid => ?_) fun _ => meets_unexpected hu ht.mayPass (Or.inr ht)
  rcases ht with ht | ⟨htoken, -⟩
  · exact (leads_scriptTail hu hbody _).map _ ht
  · rw [isScriptId, htoken, hu] at hid
    cases hid

theorem meets_directive (word : String) {body : Reading Declaration} {s : Scanner}
    (hbody : ∀ t : Scanner, t.Precedes u →
      body.Meets t (fun d v => Settles u (some d) v) (StopsBy l u))
    (hs : s.UpTo u) : (directive word body).Meets s (Settles u) (StopsBy l u) := by
  rw [directive_eq]
  refine meets_headed (P := Precedes) ?_ fun _ t ht => (hbody t ht).map
  rw [Meets, directiveWord_eq]
  by_cases hword : s.token.kind = .hash ∧ s.next.token.isWord word = true
  · rw [if_pos hword]
    have hsymbol : s.next.token.kind = .symbol :=
      beq_iff_eq.1 ((Bool.and_eq_true _ _).mp hword.2).1
    exact ((hs.precedes hu hword.1 (by decide)).next hu).precedes hu hsymbol (by decide)
  · rw [if_neg hword]
    exact hs

theorem meets_quotedDirective (word expected : String) (declare : String → Declaration)
    {s : Scanner} (hs : s.UpTo u) :
    (directive word (declare <$> quoted expected)).Meets s (Settles u) (StopsBy l u) :=
  meets_directive hu word (fun t ht => Meets.map <| Meets.map <|
    (leads_expect hu t ht).mono (fun _ _ h => Or.inl h) fun _ _ he => he) hs

/-- **A define takes the string into its value**, and needs nothing after it. -/
theorem meets_defineBody {s : Scanner} (hs : s.Precedes u) :
    defineBody.Meets s (fun d t => t.Precedes u ∨ ∃ key ts, d = ⟨key, .ofRun (ts ++ [u])⟩)
      (StopsBy l u) := by
  refine (leads_expect hu s hs).bind fun key t ht => ?_
  refine Meets.bind (Q := fun v w => w.Precedes u ∨ ∃ ts, v = .ofRun (ts ++ [u])) ?_
    fun v w hw => meets_pure (hw.imp_right fun ⟨ts, hv⟩ => ⟨_, ts, by rw [hv]⟩)
  -- the value is read with line breaks as tokens, and behind it they are skipped again
  have hmasked : (t.withMask { t.mask with newlines := false }).Precedes u :=
    ht.withMask hu rfl rfl
  have hvalue := meets_value hu (hmasked.next hu)
  cases hread : Value.read (t.withMask { t.mask with newlines := false }).next with
  | error fault w => exact (hvalue.error hread).elim
  | ok v w =>
    have hbreaks : withLineBreaks (do let _ ← next; Value.read) t = .ok v (w.withMask t.mask) := by
      unfold withLineBreaks
      rw [next_bind, hread]
    have hmask : w.mask = { t.mask with newlines := false } :=
      (Value.within_read hread).mask_eq.trans (Scanner.mask_next _)
    rw [Meets, hbreaks]
    refine (hvalue.ok hread).imp (fun hw => hw.withMask hu ?_ ?_) (·.2)
    · rw [hmask]
    · rw [hmask]

theorem meets_defineDirective (word : String) {declare : DefineDecl → Declaration}
    (hdeclare : ∀ key ts, (declare ⟨key, .ofRun (ts ++ [u])⟩).EndsWith u) {s : Scanner}
    (hs : s.UpTo u) :
    (directive word (declare <$> defineBody)).Meets s (Settles u) (StopsBy l u) := by
  refine meets_directive hu word (fun t ht => Meets.map ?_) hs
  refine (meets_defineBody hu ht).mono (fun d _ hd => hd.imp_right ?_) fun _ _ he => he
  rintro ⟨key, ts, rfl⟩
  exact hdeclare key ts

end Grammar

/-! ## Recognition -/

namespace Form

/-- Where a form may miss a cut-off string: behind a value, a size or a default, or in a body.  The
other forms check every token. -/
def lapses : Form → Lapses
  | enum => ⟨["`,` or `\x7d` after the enum member"], false⟩
  | typedef | struct => ⟨["`]`"], false⟩
  | function => ⟨["`,` or `)`"], true⟩
  | script => ⟨[], true⟩
  | variableGroup => ⟨["`,` or `;` after the variable", "`]`"], true⟩
  | _ => .none

/-- What a form comes to at a desk. -/
def Settles (l : Lapses) (u : Token) : EStateM.Result Fault Desk Outcome → Prop
  | .ok .declined d => d.scanner.UpTo u
  | .ok (.matched declaration) d => d.scanner.Precedes u ∨ ∃ x ∈ declaration, x.EndsWith u
  | .error fault d => StopsBy l u fault d.scanner

variable {l : Lapses} {u : Token} {d : Desk}

theorem settles_ofReading {p : Reading (Option Declaration)}
    (hp : p.Meets d.scanner (Grammar.Settles u) (StopsBy l u)) : Settles l u (ofReading p d) := by
  unfold ofReading
  cases hread : p d.scanner with
  | error fault s => exact hp.error hread
  | ok declaration s =>
    have hs := hp.ok hread
    cases declaration with
    | none => exact hs
    | some x => exact hs.imp_right fun hx => ⟨x, rfl, hx⟩

variable (hu : u.isUnclosedString = true)

include hu

theorem settles_openNamespaces (hd : d.scanner.UpTo u) : Settles l u (openNamespaces d) := by
  have hhead := Grammar.meets_namespaceHead (l := l) hu hd
  unfold openNamespaces
  cases hread : Grammar.namespaceHead d.scanner with
  | error fault s => exact hhead.error hread
  | ok head s =>
    have hs := hhead.ok hread
    cases head with
    | none => exact hs
    | some head =>
      obtain ⟨keys, fault⟩ := head
      cases fault with
      | none => exact Or.inl hs
      | some fault => exact hs

theorem settles_closeNamespace (hd : d.scanner.UpTo u) : Settles l u (closeNamespace d) := by
  unfold closeNamespace
  by_cases hclose : d.scanner.token.kind = .rbrace
  · have hprecedes := hd.precedes hu hclose (by decide)
    rw [if_pos hclose]
    cases d.builder.leave? with
    | some builder => exact Or.inl hprecedes
    | none => exact .before hprecedes
  · rw [if_neg hclose]
    exact hd

/-- **A form, one case for each way of writing a declaration.** -/
theorem settles_attempt (form : Form) (hd : d.scanner.UpTo u) :
    Settles form.lapses u (form.attempt d) := by
  cases form with
  | namespaceOpen => exact settles_openNamespaces hu hd
  | namespaceClose => exact settles_closeNamespace hu hd
  | importFile =>
    exact settles_ofReading <|
      Grammar.meets_quotedDirective hu _ _ (.importFile <| Text.lowercase ·) hd
  | library =>
    exact settles_ofReading <|
      Grammar.meets_quotedDirective hu _ _ (.library <| Text.uppercase ·) hd
  | includeFile =>
    exact settles_ofReading (Grammar.meets_quotedDirective hu _ _ .includeFile hd)
  | define =>
    exact settles_ofReading (Grammar.meets_defineDirective hu "define" .define hd)
  | libDefine =>
    exact settles_ofReading (Grammar.meets_defineDirective hu "libdefine" .libDefine hd)
  | typedef =>
    exact settles_ofReading <|
      Grammar.meets_keyword hu (Grammar.leads_typedefBody hu List.mem_cons_self).map hd
  | worldVariable | globalVariable =>
    exact settles_ofReading (Grammar.meets_keyword hu (Grammar.leads_indexedVariable hu).map hd)
  | enum =>
    refine settles_ofReading ?_
    rw [Grammar.enumDeclaration_eq]
    exact Grammar.meets_aggregate hu .enumWord (Grammar.leads_enumRest hu List.mem_cons_self) hd
  | struct =>
    refine settles_ofReading ?_
    rw [Grammar.structDeclaration_eq]
    exact Grammar.meets_aggregate hu .structWord (Grammar.leads_structRest hu List.mem_cons_self) hd
  | function =>
    exact settles_ofReading (Grammar.meets_functionDeclaration hu List.mem_cons_self rfl hd)
  | script =>
    exact settles_ofReading (Grammar.meets_scriptDeclaration hu rfl hd)
  | variableGroup =>
    exact settles_ofReading <| Grammar.meets_variablesDeclaration hu List.mem_cons_self
      (List.mem_cons_of_mem _ List.mem_cons_self) rfl hd

end Form

/-- What the recognition of a declaration comes to in a source that ends with a cut-off string: the
declaration is read before the string, or it is a define that ends with the string, or it fails. -/
def Desk.Settles (u : Token) : EStateM.Result Rejection Desk (Option Declaration) → Prop
  | .ok declaration d => d.scanner.Precedes u ∨ ∃ x ∈ declaration, x.EndsWith u
  | .error rejection d =>
    StopsBy (rejection.form.elim .none Form.lapses) u rejection.fault d.scanner

theorem settles_recognizeAmong {u : Token} (hu : u.isUnclosedString = true) (forms : List Form)
    {d : Desk} (hd : d.scanner.UpTo u) : Desk.Settles u (recognizeAmong forms d) := by
  induction forms generalizing d with
  | nil =>
    -- the token itself is the fault where no form takes it
    show StopsBy .none u (.noDeclaration d.scanner.token) d.scanner
    rcases hd with hd | ⟨htoken, -⟩
    · exact .before hd
    · rw [Fault.noDeclaration, htoken, if_pos hu]
      exact .atString htoken
  | cons form forms ih =>
    have hform := form.settles_attempt hu hd
    unfold recognizeAmong
    rcases hattempt : form.attempt d with ⟨outcome, d'⟩ | ⟨fault, d'⟩
    · rw [hattempt] at hform
      cases outcome with
      | declined => exact ih hform
      | matched declaration => exact hform
    · rw [hattempt] at hform
      exact hform

/-- **How declarations meet a string that is cut off.** -/
theorem settles_recognize {u : Token} (hu : u.isUnclosedString = true) {d : Desk}
    (hd : d.scanner.UpTo u) : Desk.Settles u (recognize d) :=
  settles_recognizeAmong hu Form.all hd

end AcsOutline
