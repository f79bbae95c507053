import AcsOutline.Proofs.Grammar.Heads

/-!
# The choice of a form

Forms are tried in a fixed order, but the order matters little: the first tokens of a declaration
tell one form apart from the others (`Scanner.form?`).  A form that does not start at the current
token declines and leaves everything as it was (`Form.attempt_eq_declined`), so that a form that
starts there is never kept from it by an earlier one (`recognize_of_matched`).

Variables are left out of this: they have no word of their own, and they are tried last.
-/

namespace AcsOutline

open Grammar Reading

/-- The directives and their words. -/
def Form.directives : List (String × Form) :=
  [("import", .importFile), ("library", .library), ("include", .includeFile), ("define", .define),
    ("libdefine", .libDefine)]

/-- The form of the directive that a word names. -/
def Token.directive? (t : Token) : Option Form :=
  (Form.directives.find? fun p => t.isWord p.1).map (·.2)

/-- A token names one directive at most. -/
theorem Token.directive?_of_isWord {t : Token} {word : String} {form : Form}
    (hmem : (word, form) ∈ Form.directives) (h : t.isWord word = true) :
    t.directive? = some form := by
  have hunique : ∀ p ∈ Form.directives, ∀ q ∈ Form.directives,
      Text.sameWord p.1 q.1 = true → p = q := by
    decide
  have hsame : ∀ {word : String}, t.isWord word = true → Text.sameWord t.text word = true :=
    fun hword => ((Bool.and_eq_true _ _).mp hword).2
  unfold directive?
  cases hfind : Form.directives.find? fun p => t.isWord p.1 with
  | none =>
    have hnone := List.find?_eq_none.1 hfind _ hmem
    exact absurd h hnone
  | some p =>
    have hword : t.isWord p.1 = true := by
      have hfound := List.find?_some hfind
      exact hfound
    have hp : Text.sameWord p.1 t.text = true := Text.sameWord_comm t.text p.1 ▸ hsame hword
    rw [hunique p (List.mem_of_find?_eq_some hfind) (word, form) hmem
      (Text.sameWord_trans hp (hsame h))]
    rfl

namespace Scanner

/-- The form that starts behind an access modifier, where there is one. -/
def modifiedForm? (s : Scanner) : Option Form :=
  match s.token.kind with
  | .keyword .enumWord => some .enum
  | .keyword .structWord => some .struct
  | .keyword .functionWord => some .function
  | .symbol => some (if s.startsFunction then .function else .variableGroup)
  | _ => none

/-- The form that starts at the current token. -/
def form? (s : Scanner) : Option Form :=
  match s.token.kind with
  | .keyword .strictWord | .keyword .namespaceWord => some .namespaceOpen
  | .rbrace => some .namespaceClose
  | .hash => s.next.token.directive?
  | .keyword .typedefWord => some .typedef
  | .keyword .worldWord => some .worldVariable
  | .keyword .globalWord => some .globalVariable
  | .keyword .scriptWord => some .script
  | _ => s.unmodified.modifiedForm?

variable {s : Scanner}

/-- What an access modifier may stand before is not looked at elsewhere. -/
theorem form?_eq_modifiedForm? {form : Form} (h : s.unmodified.modifiedForm? = some form) :
    s.form? = some form := by
  by_cases hprivate : s.token.kind = .keyword .privateWord
  · rw [form?, hprivate]
    exact h
  · rw [unmodified_of_ne hprivate] at h
    have hkind : s.token.kind = .keyword .enumWord ∨ s.token.kind = .keyword .structWord ∨
        s.token.kind = .keyword .functionWord ∨ s.token.kind = .symbol := by
      unfold modifiedForm? at h
      split at h
      next hkind => exact Or.inl hkind
      next hkind => exact Or.inr (Or.inl hkind)
      next hkind => exact Or.inr (Or.inr (Or.inl hkind))
      next hkind => exact Or.inr (Or.inr (Or.inr hkind))
      next => cases h
    rw [form?]
    rcases hkind with hkind | hkind | hkind | hkind <;>
      · rw [hkind]
        dsimp only
        rw [unmodified_of_ne hprivate, h]

end Scanner

/-! ## Declining -/

namespace Grammar

variable {s : Scanner}

theorem directive_eq_none {word : String} (body : Reading Declaration)
    (h : ¬(s.token.kind = .hash ∧ s.next.token.isWord word = true)) :
    directive word body s = .ok none s :=
  bind_eq_ok.2 ⟨none, s, by rw [directiveWord_eq, if_neg h], rfl⟩

theorem aggregate_eq_none {word : Keyword} {f : Option Bool → Reading (Option Declaration)}
    (hf : f none = pure none) (h : s.unmodified.token.kind ≠ .keyword word) :
    (aggregateHead word >>= f) s = .ok none s :=
  bind_eq_ok.2 ⟨none, s, by rw [aggregateHead_eq, if_neg h], by rw [hf]; rfl⟩

end Grammar

namespace Form

theorem ofReading_eq_declined {p : Reading (Option Declaration)} {d : Desk}
    (h : p d.scanner = .ok none d.scanner) : ofReading p d = .ok .declined d := by
  rw [ofReading, h]

theorem ofReading_eq_matched {p : Reading (Option Declaration)} {d : Desk} {u : Scanner}
    {declaration : Declaration} (h : p d.scanner = .ok (some declaration) u) :
    ofReading p d = .ok (.matched (some declaration)) { d with scanner := u } := by
  rw [ofReading, h]

/-- **A form that does not start at the current token declines**, and it leaves everything as it
was. -/
theorem attempt_eq_declined {form : Form} {d : Desk} (hne : form ≠ variableGroup)
    (h : d.scanner.form? ≠ some form) : form.attempt d = .ok .declined d := by
  have hkeyword : ∀ {p : Reading (Option Declaration)} {word : Keyword},
      d.scanner.token.kind ≠ .keyword word →
        ofReading (do if (← current).kind = .keyword word then p else return none) d =
          .ok .declined d := by
    intro p word hkind
    refine ofReading_eq_declined ?_
    rw [current_bind, if_neg hkind]
    rfl
  have hdirective : ∀ {word : String} (body : Reading Declaration),
      (word, form) ∈ directives → ofReading (directive word body) d = .ok .declined d := by
    intro word body hmem
    refine ofReading_eq_declined (directive_eq_none body ?_)
    rintro ⟨hhash, hword⟩
    refine h ?_
    rw [Scanner.form?, hhash]
    exact Token.directive?_of_isWord hmem hword
  cases form with
  | namespaceOpen =>
    have hhead : namespaceHead d.scanner = .ok none d.scanner := by
      rw [namespaceHead_eq, if_neg, if_neg]
      all_goals exact fun hkind => h (by rw [Scanner.form?, hkind])
    show openNamespaces d = _
    rw [openNamespaces, hhead]
  | namespaceClose =>
    show closeNamespace d = _
    rw [closeNamespace, if_neg fun hkind => h (by rw [Scanner.form?, hkind])]
  | importFile => exact hdirective _ (by decide)
  | library => exact hdirective _ (by decide)
  | includeFile => exact hdirective _ (by decide)
  | define => exact hdirective _ (by decide)
  | libDefine => exact hdirective _ (by decide)
  | typedef => exact hkeyword fun hkind => h (by rw [Scanner.form?, hkind])
  | worldVariable => exact hkeyword fun hkind => h (by rw [Scanner.form?, hkind])
  | globalVariable => exact hkeyword fun hkind => h (by rw [Scanner.form?, hkind])
  | enum =>
    exact ofReading_eq_declined (aggregate_eq_none rfl fun hkind =>
      h (Scanner.form?_eq_modifiedForm? (by rw [Scanner.modifiedForm?, hkind])))
  | struct =>
    exact ofReading_eq_declined (aggregate_eq_none rfl fun hkind =>
      h (Scanner.form?_eq_modifiedForm? (by rw [Scanner.modifiedForm?, hkind])))
  | function =>
    have hhead : functionHead d.scanner = .ok none d.scanner := by
      rw [functionHead_eq, if_neg, if_neg]
      · intro hfunction
        have hkind : d.scanner.unmodified.token.kind = .symbol :=
          beq_iff_eq.1 ((Bool.and_eq_true _ _).mp ((Bool.and_eq_true _ _).mp hfunction).1).1
        refine h (Scanner.form?_eq_modifiedForm? ?_)
        rw [Scanner.modifiedForm?, hkind, hfunction]
        rfl
      · exact fun hkind => h (Scanner.form?_eq_modifiedForm? (by rw [Scanner.modifiedForm?, hkind]))
    exact ofReading_eq_declined (bind_eq_ok.2 ⟨none, d.scanner, hhead, rfl⟩)
  | script => exact hkeyword fun hkind => h (by rw [Scanner.form?, hkind])
  | variableGroup => exact absurd rfl hne

/-- The forms before a form are others, and variables are not among them. -/
theorem exists_before (form : Form) : ∃ before after, all = before ++ form :: after ∧
    ∀ f ∈ before, f ≠ form ∧ f ≠ variableGroup :=
  ⟨all.takeWhile (· ≠ form), (all.dropWhile (· ≠ form)).tail, by cases form <;> rfl, by
    cases form <;> decide⟩

end Form

/-- **A form that starts at the current token decides** what is recognized there. -/
theorem recognize_of_matched {form : Form} {d d' : Desk} {declaration : Option Declaration}
    (hform : d.scanner.form? = some form)
    (h : form.attempt d = .ok (.matched declaration) d') : recognize d = .ok declaration d' := by
  obtain ⟨before, after, hall, hbefore⟩ := form.exists_before
  rw [recognize, hall]
  clear hall
  induction before with
  | nil => rw [List.nil_append, recognizeAmong, h]
  | cons f before ih =>
    obtain ⟨hne, hvariables⟩ := hbefore f List.mem_cons_self
    have hdeclines := Form.attempt_eq_declined hvariables (d := d) (by
      rw [hform]
      exact fun heq => hne (Option.some.inj heq).symm)
    rw [List.cons_append, recognizeAmong, hdeclines]
    exact ih fun g hg => hbefore g (List.mem_cons_of_mem f hg)

end AcsOutline
