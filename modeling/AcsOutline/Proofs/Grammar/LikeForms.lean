import AcsOutline.Proofs.Grammar.LikeDeclarations

/-!
# Forms of like scanners

From like scanners the same form is found, and it comes to the same: declarations that differ at most
in the text of array initialisers, or one cause of a fault, in the same form.  The trees under
construction stay alike as well, in any sense that is kept as namespaces are entered and left
(`Steady`).
-/

namespace AcsOutline

/-- A relation between trees under construction that is kept as namespaces are entered and left. -/
structure Steady (D : Builder → Builder → Prop) : Prop where
  enter : ∀ {b b' : Builder} (key : NamespaceKey), D b b' → D (b.enter key) (b'.enter key)
  leave : ∀ {b b' : Builder}, D b b' → Option.Rel D b.leave? b'.leave?

theorem steady_eq : Steady Eq where
  enter key h := h ▸ rfl
  leave {b _} h := by
    subst h
    cases b.leave? with
    | none => exact .none
    | some b => exact .some rfl

variable {ε ε' α α' : Type} {T : Token → Token → Prop} {S L : Scanner → Scanner → Prop}
  {D : Builder → Builder → Prop}

theorem Steady.enterAll (hD : Steady D) (keys : List NamespaceKey) {b b' : Builder} (h : D b b') :
    D (keys.foldl Builder.enter b) (keys.foldl Builder.enter b') := by
  induction keys generalizing b b' with
  | nil => exact h
  | cons key keys ih => exact ih (hD.enter key h)

/-- Like scanners and like trees. -/
structure Desk.Like (S : Scanner → Scanner → Prop) (D : Builder → Builder → Prop) (d d' : Desk) :
    Prop where
  scanner : S d.scanner d'.scanner
  builder : D d.builder d'.builder

/-- Two works at like desks come to the same: results that `R` relates, or failures that `E` relates,
and like desks in both cases. -/
def Desk.Agree (S : Scanner → Scanner → Prop) (D : Builder → Builder → Prop) (E : ε → ε' → Prop)
    (R : α → α' → Prop) : EStateM.Result ε Desk α → EStateM.Result ε' Desk α' → Prop
  | .ok a d, .ok a' d' => R a a' ∧ Desk.Like S D d d'
  | .error e d, .error e' d' => E e e' ∧ Desk.Like S D d d'
  | _, _ => False

/-- Both decline, or both match. -/
inductive Outcome.Like : Outcome → Outcome → Prop where
  | declined : Like .declined .declined
  | matched {d d' : Option Declaration} (h : Grammar.Unwritten d d') :
    Like (.matched d) (.matched d')

/-- One form and one cause. -/
structure Rejection.Like (T : Token → Token → Prop) (r r' : Rejection) : Prop where
  form_eq : r.form = r'.form
  fault : r.fault.Like T r'.fault

namespace Form

open Grammar Reading

/-- A form that comes to the same from like desks. -/
def Like (T : Token → Token → Prop) (S : Scanner → Scanner → Prop) (D : Builder → Builder → Prop)
    (p : EStateM Fault Desk Outcome) : Prop :=
  ∀ ⦃d d' : Desk⦄, Desk.Like S D d d' → Desk.Agree S D (Fault.Like T) Outcome.Like (p d) (p d')

theorem like_ofReading {p : Reading (Option Declaration)} (h : Reading.Like T S Unwritten p p) :
    Like T S D (ofReading p) := by
  intro d d' hd
  have hrel := h hd.scanner
  unfold ofReading
  generalize p d.scanner = r at hrel
  generalize p d'.scanner = r' at hrel
  rcases r with ⟨_ | a, u⟩ | ⟨fault, u⟩ <;> rcases r' with ⟨_ | a', u'⟩ | ⟨fault', u'⟩
  · exact ⟨.declined, hrel.2, hd.builder⟩
  · exact nomatch hrel.1
  · exact hrel.elim
  · exact nomatch hrel.1
  · exact ⟨.matched hrel.1, hrel.2, hd.builder⟩
  · exact hrel.elim
  · exact hrel.elim
  · exact hrel.elim
  · exact ⟨hrel.1, hrel.2, hd.builder⟩

theorem like_ofReading_eq {p : Reading (Option Declaration)} (h : Reading.Like T S Eq p p) :
    Like T S D (ofReading p) :=
  like_ofReading (h.mono fun _ _ he => congrArg (Option.map Declaration.unwritten) he)

/-- The namespaces of a head are opened up to the same fault. -/
theorem like_openNamespaces (w : Walk T S) (hD : Steady D) : Like T S D openNamespaces := by
  intro d d' hd
  have hrel := like_namespaceHead w hd.scanner
  unfold openNamespaces
  generalize namespaceHead d.scanner = r at hrel
  generalize namespaceHead d'.scanner = r' at hrel
  rcases r with ⟨head, u⟩ | ⟨fault, u⟩ <;> rcases r' with ⟨head', u'⟩ | ⟨fault', u'⟩
  · obtain ⟨hhead, hu⟩ := hrel
    cases hhead with
    | none => exact ⟨.declined, hu, hd.builder⟩
    | @some head head' h =>
      obtain ⟨hkeys, hfault⟩ := h
      have hbuilder := hD.enterAll head.keys hd.builder
      obtain ⟨keys, fault⟩ := head
      obtain ⟨keys', fault'⟩ := head'
      subst hkeys
      cases hfault with
      | none => exact ⟨.matched rfl, hu, hbuilder⟩
      | some hfault => exact ⟨hfault, hu, hbuilder⟩
  · exact hrel.elim
  · exact hrel.elim
  · exact ⟨hrel.1, hrel.2, hd.builder⟩

theorem like_closeNamespace (w : Walk T S) (hD : Steady D) : Like T S D closeNamespace := by
  intro d d' hd
  have htoken := w.token hd.scanner
  have hleave := hD.leave hd.builder
  unfold closeNamespace
  rw [(w.alike htoken).kind_eq]
  by_cases hbrace : d'.scanner.token.kind = .rbrace
  · rw [if_pos hbrace, if_pos hbrace]
    generalize d.builder.leave? = b at hleave
    generalize d'.builder.leave? = b' at hleave
    cases hleave with
    | none => exact ⟨.unmatchedBrace htoken, hd⟩
    | some hb => exact ⟨.matched rfl, hd.scanner, hb⟩
  · rw [if_neg hbrace, if_neg hbrace]
    exact ⟨.declined, hd⟩

/-- **Each form comes to the same from like desks.** -/
theorem like_attempt (l : Likeness T S L) (hD : Steady D) (form : Form) :
    Like T S D form.attempt := by
  have w := l.toWalk
  cases form with
  | namespaceOpen => exact like_openNamespaces w hD
  | namespaceClose => exact like_closeNamespace w hD
  | importFile | library | includeFile =>
    exact like_ofReading_eq <| like_directive w _ <| (like_quoted w _).map fun _ _ h => h ▸ rfl
  | define | libDefine =>
    exact like_ofReading_eq <| like_directive w _ <| (like_defineBody l).map fun _ _ h => h ▸ rfl
  | typedef => exact like_ofReading_eq (like_typedefDeclaration l)
  | worldVariable => exact like_ofReading_eq (like_indexedDeclaration w _ _)
  | globalVariable => exact like_ofReading_eq (like_indexedDeclaration w _ _)
  | enum => exact like_ofReading_eq (like_enumDeclaration w)
  | struct => exact like_ofReading_eq (like_structDeclaration l)
  | function => exact like_ofReading_eq (like_functionDeclaration l)
  | script => exact like_ofReading_eq (like_scriptDeclaration w)
  | variableGroup => exact like_ofReading (like_variablesDeclaration l)

end Form

/-- Forms that are offered in turn come to the same from like desks. -/
theorem like_recognizeAmong (l : Likeness T S L) (hD : Steady D) (forms : List Form) {d d' : Desk}
    (h : Desk.Like S D d d') :
    Desk.Agree S D (Rejection.Like T) Grammar.Unwritten (recognizeAmong forms d)
      (recognizeAmong forms d') := by
  induction forms generalizing d d' with
  | nil =>
    have htoken := l.token h.scanner
    exact ⟨⟨rfl, Fault.like_noDeclaration htoken (l.alike htoken)⟩, h⟩
  | cons form forms ih =>
    have hrel := form.like_attempt l hD h
    unfold recognizeAmong
    generalize form.attempt d = r at hrel
    generalize form.attempt d' = r' at hrel
    rcases r with ⟨outcome, e⟩ | ⟨fault, e⟩ <;> rcases r' with ⟨outcome', e'⟩ | ⟨fault', e'⟩
    · obtain ⟨houtcome, he⟩ := hrel
      cases houtcome with
      | declined => exact ih he
      | matched hdeclaration => exact ⟨hdeclaration, he⟩
    · exact hrel.elim
    · exact hrel.elim
    · exact ⟨⟨rfl, hrel.1⟩, hrel.2⟩

/-- **A declaration is recognized alike from like desks.** -/
theorem like_recognize (l : Likeness T S L) (hD : Steady D) {d d' : Desk} (h : Desk.Like S D d d') :
    Desk.Agree S D (Rejection.Like T) Grammar.Unwritten (recognize d) (recognize d') :=
  like_recognizeAmong l hD Form.all h

end AcsOutline
