import AcsOutline.Tree.Builder

/-!
# Levels of a tree

What holds at every level of a tree (`Tree.EveryLevel`), and what holds between the levels of two
trees that have the same namespaces in the same order (`Tree.Levelwise`).  Two trees that are
related level by level stay so when a namespace is looked up or put in place in both.
-/

namespace AcsOutline

namespace Tree

mutual

/-- A property holds at a level and at every level below it. -/
def EveryLevel (P : Tree → Prop) : Tree → Prop
  | ⟨notes, entries, children⟩ => P ⟨notes, entries, children⟩ ∧ EveryLevelIn P children

/-- A property holds at every level of a list of namespaces. -/
def EveryLevelIn (P : Tree → Prop) : List (NamespaceKey × Tree) → Prop
  | [] => True
  | (_, t) :: rest => t.EveryLevel P ∧ EveryLevelIn P rest

end

mutual

/-- Two trees have the same namespaces, in the same order, at every level, and a relation holds
between each level of one and the level of the other that stands in the same place. -/
def Levelwise (R : Tree → Tree → Prop) : Tree → Tree → Prop
  | ⟨notes, entries, children⟩, ⟨notes', entries', children'⟩ =>
    R ⟨notes, entries, children⟩ ⟨notes', entries', children'⟩ ∧ LevelwiseIn R children children'

/-- Two lists of namespaces have the same keys in the same order, and the namespaces with the
same place are related level by level. -/
def LevelwiseIn (R : Tree → Tree → Prop) :
    List (NamespaceKey × Tree) → List (NamespaceKey × Tree) → Prop
  | [], [] => True
  | (key, t) :: rest, (key', t') :: rest' =>
    key = key' ∧ t.Levelwise R t' ∧ LevelwiseIn R rest rest'
  | [], _ :: _ | _ :: _, [] => False

end

/-- A namespace whose key is new comes after the others. -/
theorem insertAmong_of_not_mem {key : NamespaceKey} {child : Tree}
    {children : List (NamespaceKey × Tree)} (h : key ∉ children.map Prod.fst) :
    insertAmong key child children = children ++ [(key, child)] := by
  induction children with
  | nil => rfl
  | cons c rest ih =>
    have hne : c.1 ≠ key := fun e => h (e ▸ List.mem_cons_self)
    have hrest : key ∉ rest.map Prod.fst := fun hmem => h (List.mem_cons_of_mem _ hmem)
    rw [insertAmong, if_neg hne, ih hrest, List.cons_append]

/-- A key that no namespace has leads to none. -/
theorem lookup_of_not_mem {key : NamespaceKey} {children : List (NamespaceKey × Tree)}
    (h : key ∉ children.map Prod.fst) : children.lookup key = none := by
  refine List.lookup_eq_none_iff.2 fun c hc => ?_
  rw [bne_iff_ne]
  rintro rfl
  exact h (List.mem_map_of_mem hc)

/-! ## Related level by level -/

variable {R : Tree → Tree → Prop}

mutual

theorem Levelwise.refl (hR : ∀ t, R t t) (t : Tree) : t.Levelwise R t := by
  obtain ⟨notes, entries, children⟩ := t
  exact ⟨hR _, LevelwiseIn.refl hR children⟩

theorem LevelwiseIn.refl (hR : ∀ t, R t t) (children : List (NamespaceKey × Tree)) :
    LevelwiseIn R children children := by
  cases children with
  | nil => trivial
  | cons c rest => exact ⟨rfl, Levelwise.refl hR c.2, LevelwiseIn.refl hR rest⟩

end

/-- The levels that two trees begin with are related. -/
theorem Levelwise.here {t t' : Tree} (h : t.Levelwise R t') : R t t' := by
  obtain ⟨notes, entries, children⟩ := t
  obtain ⟨notes', entries', children'⟩ := t'
  exact h.1

theorem Levelwise.below {t t' : Tree} (h : t.Levelwise R t') :
    LevelwiseIn R t.children t'.children := by
  obtain ⟨notes, entries, children⟩ := t
  obtain ⟨notes', entries', children'⟩ := t'
  exact h.2

theorem Levelwise.of_here {t t' : Tree} (hhere : R t t')
    (hbelow : LevelwiseIn R t.children t'.children) : t.Levelwise R t' := by
  obtain ⟨notes, entries, children⟩ := t
  obtain ⟨notes', entries', children'⟩ := t'
  exact ⟨hhere, hbelow⟩

/-- The namespaces with one key are related, where a new one stands for a missing one. -/
theorem LevelwiseIn.lookup (hempty : empty.Levelwise R empty) (key : NamespaceKey) :
    ∀ {children children' : List (NamespaceKey × Tree)}, LevelwiseIn R children children' →
      ((children.lookup key).getD empty).Levelwise R ((children'.lookup key).getD empty)
  | [], [], _ => hempty
  | (k, t) :: rest, (k', t') :: rest', h => by
    obtain ⟨rfl, hchild, hrest⟩ := h
    rw [List.lookup_cons, List.lookup_cons]
    split
    · exact hchild
    · exact hrest.lookup hempty key

theorem LevelwiseIn.insertAmong (key : NamespaceKey) {child child' : Tree}
    (hchild : child.Levelwise R child') :
    ∀ {children children' : List (NamespaceKey × Tree)}, LevelwiseIn R children children' →
      LevelwiseIn R (insertAmong key child children) (insertAmong key child' children')
  | [], [], _ => ⟨rfl, hchild, trivial⟩
  | (k, t) :: rest, (k', t') :: rest', h => by
    obtain ⟨rfl, hfirst, hrest⟩ := h
    rw [Tree.insertAmong, Tree.insertAmong]
    split
    · exact ⟨rfl, hchild, hrest⟩
    · exact ⟨rfl, hfirst, hrest.insertAmong key hchild⟩

/-- Namespaces that are related level by level have the same keys in the same order. -/
theorem LevelwiseIn.keys_eq :
    ∀ {children children' : List (NamespaceKey × Tree)}, LevelwiseIn R children children' →
      children.map Prod.fst = children'.map Prod.fst
  | [], [], _ => rfl
  | _ :: _, _ :: _, ⟨hkey, _, hrest⟩ => by
    rw [List.map_cons, List.map_cons, hkey, hrest.keys_eq]

mutual

/-- Trees with the same levels are the same. -/
theorem Levelwise.eq (hR : ∀ {t t'}, R t t' → t.notes = t'.notes ∧ t.entries = t'.entries)
    {t t' : Tree} (h : t.Levelwise R t') : t = t' := by
  obtain ⟨notes, entries, children⟩ := t
  obtain ⟨notes', entries', children'⟩ := t'
  obtain ⟨hnotes, hentries⟩ := hR h.1
  exact congr (congr (congrArg mk hnotes) hentries) (LevelwiseIn.eq hR h.2)

theorem LevelwiseIn.eq (hR : ∀ {t t'}, R t t' → t.notes = t'.notes ∧ t.entries = t'.entries)
    {children children' : List (NamespaceKey × Tree)} (h : LevelwiseIn R children children') :
    children = children' := by
  cases children with
  | nil =>
    cases children' with
    | nil => rfl
    | cons c' rest' => exact h.elim
  | cons c rest =>
    cases children' with
    | nil => exact h.elim
    | cons c' rest' =>
      obtain ⟨key, t⟩ := c
      obtain ⟨key', t'⟩ := c'
      obtain ⟨hkey, hchild, hrest⟩ := h
      rw [hkey, Levelwise.eq hR hchild, LevelwiseIn.eq hR hrest]

end

end Tree

/-! ## Trees under construction -/

/-- A relation between levels that says nothing about the namespaces in them. -/
def Tree.Shallow (R : Tree → Tree → Prop) : Prop :=
  ∀ {t t' : Tree} (children children' : List (NamespaceKey × Tree)), R t t' →
    R { t with children } { t' with children := children' }

namespace Builder

/-- Two trees under construction have the same namespaces open and are related level by level. -/
structure Levelwise (R : Tree → Tree → Prop) (b b' : Builder) : Prop where
  here : b.here.Levelwise R b'.here
  above : Tree.LevelwiseIn R b.above b'.above

namespace Levelwise

variable {R : Tree → Tree → Prop} {b b' : Builder}

theorem enter (hempty : R .empty .empty) (h : b.Levelwise R b') (key : NamespaceKey) :
    (b.enter key).Levelwise R (b'.enter key) where
  here := h.here.below.lookup ⟨hempty, trivial⟩ key
  above := ⟨rfl, h.here, h.above⟩

theorem insertChild (hR : Tree.Shallow R) (key : NamespaceKey) {t t' child child' : Tree}
    (h : t.Levelwise R t') (hchild : child.Levelwise R child') :
    (t.insertChild key child).Levelwise R (t'.insertChild key child') :=
  .of_here (hR _ _ h.here) (h.below.insertAmong key hchild)

/-- Both have a namespace to leave, or neither has one. -/
theorem leave? (hR : Tree.Shallow R) (h : b.Levelwise R b') :
    Option.Rel (Levelwise R) b.leave? b'.leave? := by
  obtain ⟨here, above⟩ := b
  obtain ⟨here', above'⟩ := b'
  cases above with
  | nil =>
    cases above' with
    | nil => exact .none
    | cons c' rest' => exact h.above.elim
  | cons c rest =>
    cases above' with
    | nil => exact h.above.elim
    | cons c' rest' =>
      obtain ⟨key, around⟩ := c
      obtain ⟨key', around'⟩ := c'
      obtain ⟨hkey, haround, hrest⟩ := h.above
      subst hkey
      exact .some ⟨insertChild hR _ haround h.here, hrest⟩

theorem closeAll (hR : Tree.Shallow R) {here here' : Tree} (hhere : here.Levelwise R here') :
    ∀ {above above' : List (NamespaceKey × Tree)}, Tree.LevelwiseIn R above above' →
      (Builder.closeAll here above).Levelwise R (Builder.closeAll here' above')
  | [], [], _ => hhere
  | _ :: _, _ :: _, ⟨hkey, haround, hrest⟩ => by
    rw [Builder.closeAll, Builder.closeAll]
    exact closeAll hR (hkey ▸ insertChild hR _ haround hhere) hrest

/-- The finished trees are related level by level. -/
theorem finish (hR : Tree.Shallow R) (h : b.Levelwise R b') :
    b.finish.Levelwise R b'.finish :=
  closeAll hR h.here h.above

end Levelwise

end Builder

end AcsOutline
