import AcsOutline.Proofs.Grammar.Choice
import AcsOutline.Proofs.Grammar.Recognition

/-!
# The order of the forms

The first form that does not decline decides what is recognized (`decider?`).  Of the forms before
variables at most one does not decline, wherever the scanner is, so these may be offered in any
order (`recognize_order`).  Variables have to stay behind them: they do not decline `private` before
an enum, a struct or a function, but report that no type follows it.
-/

namespace AcsOutline

open Grammar Reading

namespace Form

/-- The forms that are tried before variables. -/
def beforeVariables : List Form :=
  all.dropLast

/-- Variables are tried last, and all other forms before them. -/
theorem mem_beforeVariables {form : Form} : form ∈ beforeVariables ↔ form ≠ variableGroup := by
  cases form <;> decide

/-- Whether a form declines. -/
def declines (form : Form) (d : Desk) : Bool :=
  match form.attempt d with
  | .ok .declined _ => true
  | _ => false

variable {form form' : Form} {d : Desk}

theorem declines_of_attempt {d' : Desk} (h : form.attempt d = .ok .declined d') :
    form.declines d = true := by
  rw [declines, h]

/-- A form that declines hands on the desk. -/
theorem attempt_of_declines (h : form.declines d = true) :
    form.attempt d = .ok .declined d := by
  unfold declines at h
  split at h
  next d' hattempt =>
    rw [form.tells_attempt.declines hattempt] at hattempt
    exact hattempt
  · cases h

/-- A form before variables that does not decline is the one that starts here. -/
theorem form?_of_declines (hform : form ∈ beforeVariables) (h : form.declines d = false) :
    d.scanner.form? = some form := by
  by_contra hne
  rw [declines_of_attempt (attempt_eq_declined (mem_beforeVariables.1 hform) hne)] at h
  cases h

/-- **At most one form before variables does not decline.** -/
theorem eq_of_declines (hform : form ∈ beforeVariables) (hform' : form' ∈ beforeVariables)
    (h : form.declines d = false) (h' : form'.declines d = false) : form = form' :=
  Option.some.inj ((form?_of_declines hform h).symm.trans (form?_of_declines hform' h'))

end Form

/-! ## The form that decides -/

/-- The first of some forms that does not decline. -/
def decider? (forms : List Form) (d : Desk) : Option Form :=
  forms.find? fun form => !form.declines d

variable {forms forms' : List Form} {d : Desk}

/-- Only the form that decides matters to what is recognized. -/
theorem recognizeAmong_eq (forms : List Form) (d : Desk) :
    recognizeAmong forms d = recognizeAmong (decider? forms d).toList d := by
  induction forms with
  | nil => rfl
  | cons form forms ih =>
    unfold decider?
    cases h : form.declines d with
    | true =>
      rw [recognizeAmong, Form.attempt_of_declines h, List.find?_cons_of_neg (by simp [h])]
      exact ih
    | false =>
      rw [List.find?_cons_of_pos (by simp [h]), Option.toList_some, recognizeAmong, recognizeAmong]
      unfold Form.declines at h
      split at h
      · cases h
      next hne =>
        rcases hattempt : form.attempt d with ⟨_ | declaration, d'⟩ | ⟨fault, d'⟩
        · exact absurd hattempt (hne d')
        · rfl
        · rfl

theorem decider?_append (forms forms' : List Form) (d : Desk) :
    decider? (forms ++ forms') d = (decider? forms d).or (decider? forms' d) :=
  List.find?_append

/-- Where at most one form does not decline, that is the one that decides. -/
theorem decider?_eq_some {form : Form} (hforms : ∀ f ∈ forms, f ∈ Form.beforeVariables) :
    decider? forms d = some form ↔ form ∈ forms ∧ form.declines d = false := by
  constructor
  · intro h
    exact ⟨List.mem_of_find?_eq_some h, by simpa using List.find?_some h⟩
  · rintro ⟨hmem, h⟩
    cases hfind : decider? forms d with
    | none => exact absurd (List.find?_eq_none.1 hfind form hmem) (by simp [h])
    | some form' =>
      have hmem' := List.mem_of_find?_eq_some hfind
      have h' : form'.declines d = false := by simpa using List.find?_some hfind
      rw [Form.eq_of_declines (hforms _ hmem) (hforms _ hmem') h h']

/-- The order of forms before variables does not matter to which of them decides. -/
theorem decider?_of_perm (hforms : forms.Perm Form.beforeVariables) :
    decider? forms d = decider? Form.beforeVariables d := by
  refine Option.ext fun form => ?_
  rw [decider?_eq_some fun f hf => hforms.mem_iff.1 hf, decider?_eq_some fun f hf => hf,
    hforms.mem_iff]

/-! ## Variables -/

/-- Whether an enum, a struct or a function follows the access modifier `private` by its word. -/
def Scanner.modifiesWord (s : Scanner) : Bool :=
  s.isPrivate &&
    [.keyword .enumWord, .keyword .structWord, .keyword .functionWord].contains s.next.token.kind

variable {s : Scanner} {form : Form}

/-- Where another form starts than variables, a type starts a function. -/
theorem Scanner.startsFunction_of_form? (hne : form ≠ .variableGroup) (h : s.form? = some form)
    (htype : s.unmodified.token.kind = .symbol) : s.unmodified.startsFunction = true := by
  by_contra hnot
  have hvariables : s.unmodified.modifiedForm? = some .variableGroup := by
    rw [modifiedForm?, htype]
    exact congrArg some (if_neg hnot)
  rw [form?_eq_modifiedForm? hvariables] at h
  exact hne (Option.some.inj h).symm

/-- Where a form starts, what may follow `private` is a type or one of three words. -/
theorem Scanner.modifiesWord_iff (h : s.form? = some form) :
    s.modifiesWord = true ↔ s.isPrivate = true ∧ s.unmodified.token.kind ≠ .symbol := by
  by_cases hprivate : s.token.kind = .keyword .privateWord
  · have hform : s.next.modifiedForm? = some form := by
      rw [form?, hprivate] at h
      exact unmodified_of_eq hprivate ▸ h
    rw [modifiesWord, isPrivate, beq_iff_eq.2 hprivate, unmodified_of_eq hprivate]
    unfold modifiedForm? at hform
    split at hform
    next hkind => simp [hkind]
    next hkind => simp [hkind]
    next hkind => simp [hkind]
    next hkind => simp [hkind]
    next => cases hform
  · have hnot : s.isPrivate = false := beq_eq_false_iff_ne.2 hprivate
    simp [modifiesWord, hnot]

/-- Where another form starts, the head of variables fails if that form follows `private` by its
word, and declines otherwise. -/
theorem Grammar.variablesHead_of_form? (hne : form ≠ .variableGroup) (h : s.form? = some form) :
    variablesHead s = if s.modifiesWord = true then
      .error (.unexpected "a declaration after `private`" s.unmodified.token) s
      else .ok none s := by
  rw [variablesHead_eq]
  by_cases hword : s.modifiesWord = true
  · rw [if_pos ((Scanner.modifiesWord_iff h).1 hword), if_pos hword]
  · have hhead : s.unmodified.token.kind ≠ .symbol ∨ s.unmodified.startsFunction = true := by
      rw [or_iff_not_imp_left, Decidable.not_not]
      exact Scanner.startsFunction_of_form? hne h
    rw [if_neg fun hc => hword ((Scanner.modifiesWord_iff h).2 hc), if_pos hhead, if_neg hword]

/-- Where another form starts, variables decline unless that form follows `private` by its word. -/
theorem Form.declines_variableGroup (hform : form ∈ beforeVariables)
    (h : form.declines d = false) :
    variableGroup.declines d = !d.scanner.modifiesWord := by
  have hhead := variablesHead_of_form? (mem_beforeVariables.1 hform) (form?_of_declines hform h)
  have hattempt : variableGroup.attempt d = ofReading variablesDeclaration d := rfl
  have hbind : variablesDeclaration d.scanner = EStateM.bind variablesHead _ d.scanner := rfl
  rw [declines, hattempt, ofReading, hbind, EStateM.bind, hhead]
  cases d.scanner.modifiesWord with
  | true => rfl
  | false => rfl

/-! ## The order -/

/-- **The forms before variables may be offered in any order.**  At most one of them does not
decline; where one does not, variables decline as well, unless `private` is followed by the word of
an enum, a struct or a function; and so, in whatever order they are offered, the same form decides,
and the same declaration or rejection comes of it, at the same desk. -/
theorem recognize_order (d : Desk) :
    (∀ form ∈ Form.beforeVariables, ∀ form' ∈ Form.beforeVariables,
      form.declines d = false → form'.declines d = false → form = form') ∧
    (∀ form ∈ Form.beforeVariables, form.declines d = false →
      Form.variableGroup.declines d = !d.scanner.modifiesWord) ∧
    ∀ forms : List Form, forms.Perm Form.beforeVariables →
      decider? (forms ++ [.variableGroup]) d = decider? Form.all d ∧
        recognizeAmong (forms ++ [.variableGroup]) d = recognize d := by
  refine ⟨fun form hform form' hform' h h' => Form.eq_of_declines hform hform' h h',
    fun form hform h => Form.declines_variableGroup hform h, fun forms hforms => ?_⟩
  have hdecider : decider? (forms ++ [.variableGroup]) d = decider? Form.all d := by
    have hall : Form.all = Form.beforeVariables ++ [.variableGroup] := rfl
    rw [hall, decider?_append, decider?_append, decider?_of_perm hforms]
  refine ⟨hdecider, ?_⟩
  rw [recognize, recognizeAmong_eq, hdecider, ← recognizeAmong_eq]

/-- An enum that is private is recognized as well with the forms turned around.  Variables do not
decline it, so that they have to stay the last. -/
theorem recognize_order_turned_around :
    let d : Desk := ⟨(Scanner.ofString "private enum { RED }").next, .empty⟩
    Form.enum.declines d = false ∧ Form.variableGroup.declines d = false ∧
      Form.beforeVariables.reverse.Perm Form.beforeVariables ∧
      recognizeAmong (Form.beforeVariables.reverse ++ [.variableGroup]) d = recognize d := by
  intro d
  have henum : Form.enum.declines d = false := by decide +kernel
  obtain ⟨-, hvariables, horder⟩ := recognize_order d
  have hlast := hvariables .enum (by decide) henum
  have hmodifies : d.scanner.modifiesWord = true := by decide +kernel
  rw [hmodifies] at hlast
  exact ⟨henum, hlast, List.reverse_perm _, (horder _ (List.reverse_perm _)).2⟩

end AcsOutline
