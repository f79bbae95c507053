import AcsOutline.Proofs.Grammar.Outcomes
import AcsOutline.Proofs.Session.History

/-!
# Namespace heads that fail

A namespace head that is at fault has opened one namespace for each name that a point follows, and
no other (`Grammar.opens_namespaceHead`).  So a declaration that is rejected leaves the open
namespaces as they were, unless it is such a head (`Builder.path_of_rejection`).
-/

namespace AcsOutline

namespace Scanner

/-- The namespaces of the names behind the current token, as long as a point follows each. -/
def dottedKeys (isStrict : Bool) (s : Scanner) : List NamespaceKey :=
  if _h : s.next.token.kind = .symbol ∧ s.next.next.token.kind = .dot then
    ⟨isStrict, some s.next.token.text⟩ :: s.next.next.dottedKeys isStrict
  else []
termination_by s.remaining
decreasing_by
  obtain ⟨hname, hpoint⟩ := _h
  have hone : s.next.remaining < s.remaining := remaining_next_lt (Or.inr (by rw [hname]; decide))
  have htwo : s.next.next.remaining < s.next.remaining :=
    remaining_next_lt (Or.inr (by rw [hpoint]; decide))
  exact Nat.lt_trans htwo hone

theorem dottedKeys_cons {s : Scanner} (isStrict : Bool) (hname : s.next.token.kind = .symbol)
    (hpoint : s.next.next.token.kind = .dot) :
    s.dottedKeys isStrict =
      ⟨isStrict, some s.next.token.text⟩ :: s.next.next.dottedKeys isStrict := by
  rw [dottedKeys, dif_pos ⟨hname, hpoint⟩]

theorem dottedKeys_nil {s : Scanner} (isStrict : Bool)
    (h : ¬(s.next.token.kind = .symbol ∧ s.next.next.token.kind = .dot)) :
    s.dottedKeys isStrict = [] := by
  rw [dottedKeys, dif_neg h]

/-- The namespaces that a head opens before a fault in it, where it starts at the current token. -/
def openedKeys (first : Scanner) : List NamespaceKey :=
  if first.token.kind = .keyword .strictWord then
    if first.next.token.kind = .keyword .namespaceWord then first.next.dottedKeys true else []
  else if first.token.kind = .keyword .namespaceWord then first.dottedKeys false
  else []

end Scanner

namespace Grammar

open Reading

variable {isStrict : Bool} {keys whole : List NamespaceKey} {s : Scanner}

/-- A head that is complete, or has opened exactly some namespaces. -/
def NamespaceHead.Opens (whole : List NamespaceKey) (head : NamespaceHead) : Prop :=
  head.fault = none ∨ head.keys = whole

/-- A round takes a name with the point after it, or it is the last one. -/
theorem opens_namespaceRound (hkeys : keys.reverse ++ s.dottedKeys isStrict = whole) :
    (namespaceRound isStrict keys).Meets s (Round.Keeps
      (fun keys t => keys.reverse ++ t.dottedKeys isStrict = whole)
      fun head _ => head.Opens whole) fun _ _ => False := by
  -- where no name with a point follows, what was opened before is all
  have hend : ¬(s.next.token.kind = .symbol ∧ s.next.next.token.kind = .dot) →
      keys.reverse = whole := by
    intro hnone
    rwa [Scanner.dottedKeys_nil isStrict hnone, List.append_nil] at hkeys
  show (if s.next.token.kind = .symbol then _ else _ :
    Reading (Round (List NamespaceKey) NamespaceHead)).Meets s.next _ _
  refine .ite (fun hname => ?_) fun hname => meets_pure (.inr (hend fun h => hname h.1))
  show (if s.next.next.token.kind = .dot then _ else _ :
    Reading (Round (List NamespaceKey) NamespaceHead)).Meets s.next.next _ _
  refine .ite (fun hpoint => meets_pure ?_) fun hpoint => ?_
  · rw [Scanner.dottedKeys_cons isStrict hname hpoint] at hkeys
    show (_ :: keys).reverse ++ s.next.next.dottedKeys isStrict = whole
    rw [List.reverse_cons, List.append_assoc]
    exact hkeys
  · exact .ite (fun _ => meets_pure (.inl rfl))
      fun _ => meets_pure (.inr (hend fun h => hpoint h.2))

theorem opens_namespaceNames (isStrict : Bool) (s : Scanner) :
    (namespaceNames isStrict).Meets s (fun head _ => head.Opens (s.dottedKeys isStrict))
      fun _ _ => False := by
  rw [Reading.Meets, namespaceNames, peek_bind]
  show (if s.next.token.kind = .lbrace then _ else _ : Reading NamespaceHead).Meets s _ _
  refine .ite (fun _ => Or.inl rfl) fun _ => ?_
  exact meets_loop _ (fun keys t hkeys => opens_namespaceRound hkeys) (List.nil_append _)

/-- **A head at fault has opened the namespaces of its names that a point follows.** -/
theorem opens_namespaceHead (s : Scanner) :
    namespaceHead.Meets s (fun head _ => ∀ h ∈ head, h.Opens s.openedKeys)
      fun _ _ => s.openedKeys = [] := by
  rw [Reading.Meets, namespaceHead_eq]
  by_cases hstrict : s.token.kind = .keyword .strictWord
  · rw [if_pos hstrict]
    show (check s.next.token _ _ >>= fun _ => some <$> namespaceNames true).Meets s.next _ _
    by_cases hword : s.next.token.kind = .keyword .namespaceWord
    · have hopened : s.openedKeys = s.next.dottedKeys true := by
        rw [Scanner.openedKeys, if_pos hstrict, if_pos hword]
      rw [hopened, check_of_kind hword (by decide), pure_bind]
      refine .map (.mono (opens_namespaceNames true s.next) ?_ fun _ _ hnone => hnone.elim)
      rintro head t hhead h ⟨⟩
      exact hhead
    · have hopened : s.openedKeys = [] := by
        rw [Scanner.openedKeys, if_pos hstrict, if_neg hword]
      rw [check, if_neg fun h => hword h.1]
      exact hopened
  · rw [if_neg hstrict]
    by_cases hword : s.token.kind = .keyword .namespaceWord
    · have hopened : s.openedKeys = s.dottedKeys false := by
        rw [Scanner.openedKeys, if_neg hstrict, if_pos hword]
      rw [if_pos hword, hopened]
      refine Meets.map (.mono (opens_namespaceNames false s) ?_ fun _ _ hnone => hnone.elim)
      rintro head t hhead h ⟨⟩
      exact hhead
    · rw [if_neg hword]
      intro h hnone
      cases hnone

end Grammar

/-- A form that fails among others is one of them. -/
theorem form_of_rejection {forms : List Form} {d d' : Desk} {rejection : Rejection}
    (h : recognizeAmong forms d = .error rejection d') :
    ∀ form ∈ rejection.form, form ∈ forms := by
  induction forms generalizing d with
  | nil =>
    cases h
    exact fun form hform => nomatch hform
  | cons form forms ih =>
    unfold recognizeAmong at h
    split at h
    · exact fun form' hform' => List.mem_cons_of_mem _ (ih h form' hform')
    · cases h
    · cases h
      intro form' hform'
      rw [← Option.some.inj hform']
      exact List.mem_cons_self

/-- **A declaration that is rejected leaves the open namespaces**, but for those that a namespace
head has opened before its fault. -/
theorem Builder.path_of_rejection {first : Scanner} {b : Builder} {rejection : Rejection}
    {desk : Desk} (h : recognize ⟨first, b⟩ = .error rejection desk) :
    (namespaceEdits first).foldl Edit.walk b.path =
      b.path ++ if rejection.form = some .namespaceOpen then first.openedKeys else [] := by
  have hopened := Grammar.opens_namespaceHead first
  have hopen : Form.attempt .namespaceOpen ⟨first, b⟩ = Form.openNamespaces ⟨first, b⟩ := rfl
  unfold recognize Form.all recognizeAmong at h
  rw [hopen, Form.openNamespaces] at h
  unfold namespaceEdits
  rcases hhead : Grammar.namespaceHead first with ⟨_ | ⟨keys, _ | fault⟩, t⟩ | ⟨fault, t⟩
  · -- no head starts here, so that another form fails
    obtain rfl := Grammar.eq_of_namespaceHead_none hhead
    rw [hhead] at h
    dsimp only at h ⊢
    have hform : rejection.form ≠ some .namespaceOpen := by
      intro hform
      have hmem := form_of_rejection h _ hform
      revert hmem
      decide
    rw [if_neg hform, List.append_nil]
    by_cases hbrace : first.token.kind = .rbrace
    · have hclose : Form.attempt .namespaceClose ⟨first, b⟩ =
          Form.closeNamespace ⟨first, b⟩ := rfl
      rw [if_pos hbrace]
      unfold recognizeAmong at h
      rw [hclose, Form.closeNamespace] at h
      dsimp only at h
      rw [if_pos hbrace] at h
      cases habove : b.above with
      | nil =>
        show b.path.dropLast = b.path
        rw [path, habove]
        rfl
      | cons outer above =>
        unfold leave? at h
        rw [habove] at h
        cases h
    · rw [if_neg hbrace]
      rfl
  · rw [hhead] at h
    cases h
  · have hkeys := (hopened.ok hhead _ rfl).resolve_left (by intro hnone; cases hnone)
    dsimp only at hkeys
    rw [hhead] at h
    cases h
    rw [if_pos rfl, ← hkeys]
    exact Edit.foldl_walk_enter keys b.path
  · rw [hhead] at h
    cases h
    rw [if_pos rfl, hopened.error hhead, List.append_nil]
    rfl

end AcsOutline
