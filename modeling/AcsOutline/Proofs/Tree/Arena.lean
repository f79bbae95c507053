import AcsOutline.Tree.Arena
import AcsOutline.Proofs.Tree.Edits

/-!
# The arena builds the tree

An arena and a builder that take the same steps finish the same tree (`Arena.finish_after`).

Each place of the array stands for one path of keys, and no two for the same
(`Arena.Levels.Holds`).  So the places below a level are those whose paths go on from its own, and
to take these out is to leave all others in the array (`Arena.assemble_of_holds`).
-/

namespace AcsOutline

namespace Arena

open Builder (Edit)

variable {s s' : Levels} {place : Nat → List NamespaceKey} {t : Tree}

/-- What a level of the array holds itself. -/
def Node.shell (node : Node) : List TaskNote × List Entry × List NamespaceKey :=
  (node.notes.toList, node.entries.toList, node.children.map Prod.fst)

/-- The levels of a tree stand in an array, each at one place, where `place` gives the path that a
place stands for. -/
structure Levels.Holds (s : Levels) (place : Nat → List NamespaceKey) (t : Tree) : Prop where
  root : place 0 = []
  injective : ∀ i j, i < s.nodes.size → j < s.nodes.size → place i = place j → i = j
  reached : ∀ i < s.nodes.size, ∀ q key, place i = q ++ [key] → key ∈ (t.level q).keys
  shell : ∀ i node, s.nodes[i]? = some node → node.shell = (t.level (place i)).shell
  child : ∀ i node, s.nodes[i]? = some node → ∀ c ∈ node.children, place c.2 = place i ++ [c.1]

/-! ## Putting the tree together -/

theorem Levels.getElem?_clear_of_ne {i j : Nat} (hi : i < s.nodes.size) (h : i ≠ j) :
    (s.clear i hi).nodes[j]? = s.nodes[j]? := by
  rw [Levels.clear, Array.getElem?_set, if_neg h]

/-- A path does not go on both ways from a place where two keys differ. -/
theorem not_prefix_of_ne {p q : List NamespaceKey} {key key' : NamespaceKey} (hne : key ≠ key')
    (h : p ++ [key] <+: q) : ¬ p ++ [key'] <+: q := by
  intro h'
  have heq : p ++ [key] = p ++ [key'] :=
    (List.prefix_of_prefix_length_le h h' (by simp)).eq_of_length (by simp)
  exact hne (List.singleton_inj.1 (List.append_cancel_left heq))

mutual

/-- **The tree below a place is put together** out of the places whose paths go on from its own,
and all others stay as they are. -/
theorem assemble_of_holds (h : s.Holds place t) (hkeys : ∀ q, (t.level q).keys.Nodup) (sub : Tree)
    (s' : Levels) (i : Nat) (hi : i < s'.nodes.size) (hsub : t.level (place i) = sub)
    (hsame : ∀ j, place i <+: place j → s'.nodes[j]? = s.nodes[j]?) :
    (assemble s' i hi).1 = sub ∧
      ∀ j, ¬ place i <+: place j → (assemble s' i hi).2.1.nodes[j]? = s'.nodes[j]? := by
  obtain ⟨notes, entries, children⟩ := sub
  have hnode : s.nodes[i]? = some s'.nodes[i] := by
    rw [← hsame i (List.prefix_refl _), Array.getElem?_eq_getElem hi]
  have hshell := h.shell i _ hnode
  rw [hsub] at hshell
  simp only [Node.shell, Tree.shell, Tree.keys, Prod.mk.injEq, Array.toList_inj] at hshell
  obtain ⟨hnotes, hentries, hnames⟩ := hshell
  have hdistinct : (children.map Prod.fst).Nodup := by
    have := hkeys (place i)
    rwa [hsub] at this
  have hlevel : ∀ c ∈ children, t.level (place i ++ [c.1]) = c.2 := by
    intro c hc
    have hfind : Tree.child? ⟨notes, entries, children⟩ c.1 = some c.2 :=
      Tree.child?_of_mem hc hdistinct
    rw [Tree.level_append, hsub, Tree.level_cons, hfind]
    rfl
  have hbelow : ∀ c ∈ s'.nodes[i].children, ∀ j, place i ++ [c.1] <+: place j →
      (s'.clear i hi).nodes[j]? = s.nodes[j]? := by
    intro c hc j hj
    have hne : i ≠ j := by
      rintro rfl
      exact absurd hj.length_le (by simp)
    rw [Levels.getElem?_clear_of_ne hi hne]
    exact hsame j ((List.prefix_append _ _).trans hj)
  obtain ⟨hall, hrest⟩ := assembleAll_of_holds h hkeys children (s'.clear i hi)
    s'.nodes[i].children (fun c hc => by
      rw [s'.size_clear]
      exact s'.linked _ (Array.getElem_mem hi) c hc) (place i) hnames hdistinct
    (h.child i _ hnode) hlevel hbelow
  unfold assemble
  refine ⟨?_, fun j hj => ?_⟩
  · simp only [hall, hnotes, hentries]
  · have hne : i ≠ j := by
      rintro rfl
      exact hj (List.prefix_refl _)
    rw [← Levels.getElem?_clear_of_ne hi hne]
    exact hrest j fun c _ hc => hj ((List.prefix_append _ _).trans hc)

theorem assembleAll_of_holds (h : s.Holds place t) (hkeys : ∀ q, (t.level q).keys.Nodup)
    (subs : List (NamespaceKey × Tree)) (s' : Levels) (cs : List (NamespaceKey × Nat))
    (hcs : ∀ c ∈ cs, c.2 < s'.nodes.size) (p : List NamespaceKey)
    (hnames : cs.map Prod.fst = subs.map Prod.fst) (hdistinct : (subs.map Prod.fst).Nodup)
    (hplace : ∀ c ∈ cs, place c.2 = p ++ [c.1]) (hlevel : ∀ c ∈ subs, t.level (p ++ [c.1]) = c.2)
    (hsame : ∀ c ∈ cs, ∀ j, p ++ [c.1] <+: place j → s'.nodes[j]? = s.nodes[j]?) :
    (assembleAll s' cs hcs).1 = subs ∧
      ∀ j, (∀ c ∈ cs, ¬ p ++ [c.1] <+: place j) →
        (assembleAll s' cs hcs).2.1.nodes[j]? = s'.nodes[j]? := by
  cases subs with
  | nil =>
    obtain rfl : cs = [] := List.map_eq_nil_iff.1 hnames
    unfold assembleAll
    exact ⟨rfl, fun _ _ => rfl⟩
  | cons c' subs =>
    obtain ⟨key, sub⟩ := c'
    obtain _ | ⟨⟨key', i⟩, cs⟩ := cs
    · cases hnames
    obtain ⟨rfl, hnames'⟩ := List.cons.inj hnames
    obtain ⟨hfresh, hdistinct'⟩ := List.nodup_cons.1 hdistinct
    have hi := hplace _ List.mem_cons_self
    obtain ⟨hone, hleft⟩ := assemble_of_holds h hkeys sub s' i (hcs _ List.mem_cons_self)
      (by rw [hi]; exact hlevel _ List.mem_cons_self)
      (fun j hj => hsame _ List.mem_cons_self j (hi ▸ hj))
    have hother : ∀ c ∈ cs, c.1 ≠ key' := fun c hc e =>
      hfresh (hnames' ▸ List.mem_map.2 ⟨c, hc, e⟩)
    obtain ⟨hall, hrest⟩ := assembleAll_of_holds h hkeys subs
      (assemble s' i (hcs _ List.mem_cons_self)).2.1 cs (fun c hc => by
        rw [(assemble s' i (hcs _ List.mem_cons_self)).2.2.1]
        exact hcs c (List.mem_cons_of_mem _ hc)) p hnames' hdistinct'
      (fun c hc => hplace c (List.mem_cons_of_mem _ hc))
      (fun c hc => hlevel c (List.mem_cons_of_mem _ hc))
      (fun c hc j hj => by
        rw [hleft j (by rw [hi]; exact not_prefix_of_ne (hother c hc) hj)]
        exact hsame c (List.mem_cons_of_mem _ hc) j hj)
    unfold assembleAll
    refine ⟨?_, fun j hj => ?_⟩
    · simp only [hone, hall]
    · rw [← hleft j (by rw [hi]; exact hj _ List.mem_cons_self)]
      exact hrest j fun c hc => hj c (List.mem_cons_of_mem _ hc)

end

/-! ## One step -/

/-- An array that holds a tree holds every tree whose levels have the same shells. -/
theorem Levels.Holds.of_shell_eq {t' : Tree} (h : s.Holds place t)
    (hshell : ∀ q, (t'.level q).shell = (t.level q).shell) : s.Holds place t' where
  root := h.root
  injective := h.injective
  reached i hi q key hq := by
    have hkeys : (t'.level q).keys = (t.level q).keys := congrArg (·.2.2) (hshell q)
    rw [hkeys]
    exact h.reached i hi q key hq
  shell i node hnode := by rw [hshell, h.shell i node hnode]
  child := h.child

variable {a : Arena} {p : List NamespaceKey}

theorem getElem?_current (a : Arena) : a.nodes[a.current]? = some a.here :=
  Array.getElem?_eq_getElem a.current_lt

/-- The open level has the shell of the level that its path leads to. -/
theorem shell_here (h : a.toLevels.Holds place t) (hp : place a.current = p) :
    a.here.shell = (t.level p).shell :=
  hp ▸ h.shell _ _ a.getElem?_current

/-- A place other than the open one stands for another path. -/
theorem place_ne (h : a.toLevels.Holds place t) (hp : place a.current = p) {i : Nat} {node : Node}
    (hnode : a.nodes[i]? = some node) (hne : a.current ≠ i) : place i ≠ p := by
  obtain ⟨hi, -⟩ := Array.getElem?_eq_some_iff.1 hnode
  exact fun e => hne (h.injective _ _ a.current_lt hi (hp.trans e.symm))

/-- To add to the open level is to take the step on the tree. -/
theorem holds_put (h : a.toLevels.Holds place t) (hp : place a.current = p)
    (hopen : (t.find? p).isSome) {e : Edit} {node : Node} (hnode : node.children = a.here.children)
    (hshell : node.shell = (e.effect (t.level p)).shell) :
    (a.put node hnode).toLevels.Holds place (t.update e.effect p) where
  root := h.root
  injective i j hi hj := by
    rw [put, Array.size_set] at hi hj
    exact h.injective i j hi hj
  reached i hi q key hq := by
    rw [put, Array.size_set] at hi
    exact e.mem_keys_level_update hopen (h.reached i hi q key hq)
  shell i n hn := by
    rw [e.shell_level_update hopen]
    rw [put, Array.getElem?_set] at hn
    split at hn
    · rename_i hi
      obtain rfl := Option.some.inj hn
      rw [← hi, hp, if_pos rfl, hshell]
    · rename_i hi
      rw [if_neg (place_ne h hp hn hi)]
      exact h.shell i n hn
  child i n hn := by
    rw [put, Array.getElem?_set] at hn
    split at hn
    · rename_i hi
      obtain rfl := Option.some.inj hn
      rw [← hi, hnode]
      exact h.child _ _ a.getElem?_current
    · exact h.child i n hn

/-- A new level stands at the last place and is named by the open level. -/
theorem getElem?_branch {key : NamespaceKey} (i : Nat) (node : Node)
    (h : (a.branch key).nodes[i]? = some node) :
    (i = a.nodes.size ∧ node = .empty) ∨
      (i < a.nodes.size ∧ a.current ≠ i ∧ a.nodes[i]? = some node) ∨
      (i = a.current ∧
        node = { a.here with children := a.here.children ++ [(key, a.nodes.size)] }) := by
  rw [branch, Array.getElem?_set] at h
  split at h
  · rename_i hi
    exact .inr (.inr ⟨hi.symm, (Option.some.inj h).symm⟩)
  · rename_i hi
    rw [Array.getElem?_push] at h
    split at h
    · rename_i hlast
      exact .inl ⟨hlast, (Option.some.inj h).symm⟩
    · obtain ⟨hlt, -⟩ := Array.getElem?_eq_some_iff.1 h
      exact .inr (.inl ⟨hlt, hi, h⟩)

/-- To put a new level after the others is to touch the open level of the tree. -/
theorem holds_branch (h : a.toLevels.Holds place t) (hp : place a.current = p)
    (hopen : (t.find? p).isSome) {key : NamespaceKey} (hnew : key ∉ (t.level p).keys) :
    (a.branch key).Holds (fun i => if i = a.nodes.size then p ++ [key] else place i)
      (t.update (Edit.enter key).effect p) := by
  have hold : ∀ i < a.nodes.size, (if i = a.nodes.size then p ++ [key] else place i) = place i :=
    fun i hi => if_neg (Nat.ne_of_lt hi)
  have hfresh : ∀ i < a.nodes.size, place i ≠ p ++ [key] := fun i hi e =>
    hnew (h.reached i hi p key e)
  have hsize := a.size_branch key
  constructor
  case root => rw [hold 0 a.root_lt, h.root]
  case injective =>
    intro i j hi hj hij
    rw [hsize] at hi hj
    rcases Nat.lt_succ_iff_lt_or_eq.1 hi with hi | rfl <;>
      rcases Nat.lt_succ_iff_lt_or_eq.1 hj with hj | rfl
    · rw [hold i hi, hold j hj] at hij
      exact h.injective i j hi hj hij
    · rw [hold i hi, if_pos rfl] at hij
      exact absurd hij (hfresh i hi)
    · rw [hold j hj, if_pos rfl] at hij
      exact absurd hij.symm (hfresh j hj)
    · rfl
  case reached =>
    intro i hi q k hq
    rw [hsize] at hi
    rcases Nat.lt_succ_iff_lt_or_eq.1 hi with hi | rfl
    · rw [hold i hi] at hq
      exact Edit.mem_keys_level_update _ hopen (h.reached i hi q k hq)
    · rw [if_pos rfl] at hq
      obtain ⟨rfl, hk⟩ := List.append_inj' hq rfl
      obtain rfl := List.singleton_inj.1 hk
      rw [Tree.level_update]
      exact Tree.mem_keys_touch key _
  case shell =>
    intro i node hnode
    rw [Edit.shell_level_update _ hopen]
    rcases getElem?_branch i node hnode with ⟨rfl, rfl⟩ | ⟨hi, hne, hnode⟩ | ⟨rfl, rfl⟩
    · have hmissing : t.level (p ++ [key]) = .empty := Tree.level_concat_of_not_mem hnew
      rw [if_pos rfl, if_neg (by simp), hmissing]
      rfl
    · rw [hold i hi, if_neg (place_ne h hp hnode hne)]
      exact h.shell i node hnode
    · have hhere : a.here.shell = (t.level p).shell := shell_here h hp
      simp only [Node.shell, Tree.shell, Prod.mk.injEq] at hhere
      obtain ⟨hnotes, hentries, hkeys⟩ := hhere
      rw [hold _ a.current_lt, hp, if_pos rfl, Edit.shell_effect]
      simp [Node.shell, Edit.note?, Edit.entry?, Edit.key?, hnew, hnotes, hentries, hkeys]
  case child =>
    intro i node hnode c hc
    rcases getElem?_branch i node hnode with ⟨rfl, rfl⟩ | ⟨hi, hne, hnode⟩ | ⟨rfl, rfl⟩
    · cases hc
    · rw [hold i hi, hold _ (a.linked node (Array.mem_of_getElem? hnode) c hc)]
      exact h.child i node hnode c hc
    · rw [hold _ a.current_lt, hp]
      rcases List.mem_append.1 hc with hc | hc
      · rw [hold _ (a.linked _ a.here_mem c hc), ← hp]
        exact h.child _ _ a.getElem?_current c hc
      · rw [List.mem_singleton.1 hc]
        exact if_pos rfl

/-! ## The open levels -/

/-- The open places stand for the open path, the innermost for the whole of it. -/
inductive Opened (place : Nat → List NamespaceKey) : List Nat → List NamespaceKey → Prop
  | root : place 0 = [] → Opened place [0] []
  | inner {i : Nat} {stack : List Nat} {path : List NamespaceKey} {key : NamespaceKey} :
    Opened place stack path → place i = path ++ [key] → Opened place (i :: stack) (path ++ [key])

namespace Opened

variable {stack : List Nat} {path : List NamespaceKey}

theorem length_eq (h : Opened place stack path) : stack.length = path.length + 1 := by
  induction h with
  | root => rfl
  | inner _ _ ih => rw [List.length_cons, List.length_append, ih]; rfl

theorem place_head (h : Opened place stack path) : place (stack.headD 0) = path := by
  cases h with
  | root h => exact h
  | inner _ h => exact h

theorem congr {place' : Nat → List NamespaceKey} (h : Opened place stack path)
    (hsame : ∀ i ∈ stack, place' i = place i) : Opened place' stack path := by
  induction h with
  | root h => exact .root ((hsame 0 List.mem_cons_self).trans h)
  | inner _ h ih =>
    exact .inner (ih fun i hi => hsame i (List.mem_cons_of_mem _ hi))
      ((hsame _ List.mem_cons_self).trans h)

theorem tail (h : Opened place stack path) (hstack : ¬ stack.length ≤ 1) :
    Opened place stack.tail path.dropLast := by
  cases h with
  | root => exact absurd (Nat.le_refl 1) hstack
  | inner h _ => rwa [List.tail_cons, List.dropLast_concat]

end Opened

/-- An arena builds the same tree as a builder, with the same path open. -/
def Follows (a : Arena) (b : Builder) : Prop :=
  ∃ place, a.toLevels.Holds place b.finish ∧ Opened place a.stack b.path

variable {b : Builder}

theorem follows_empty : empty.Follows .empty := by
  refine ⟨fun _ => [], ⟨rfl, fun i j hi hj _ => ?_, fun i _ q key h => ?_, fun i node h => ?_,
    fun i node h c hc => ?_⟩, .root rfl⟩
  · have hi : i < 1 := hi
    have hj : j < 1 := hj
    omega
  · exact absurd h (by simp)
  · obtain ⟨hi, rfl⟩ := Array.getElem?_eq_some_iff.1 h
    obtain rfl : i = 0 := Nat.lt_one_iff.1 hi
    rfl
  · obtain ⟨hi, rfl⟩ := Array.getElem?_eq_some_iff.1 h
    obtain rfl : i = 0 := Nat.lt_one_iff.1 hi
    cases hc

/-- The path that is open leads to a level of the finished tree. -/
theorem isSome_find?_path (b : Builder) : (b.finish.find? b.path).isSome := by
  rw [Builder.find?_path]
  rfl

/-- A step that makes no namespace replaces the open level. -/
theorem Follows.put (h : a.Follows b) (e : Edit) (node : Node)
    (hnode : node.children = a.here.children) (hwalk : e.walk b.path = b.path)
    (hshell : ∀ t : Tree, a.here.shell = t.shell → node.shell = (e.effect t).shell) :
    (a.put node hnode).Follows (b.edit e) := by
  obtain ⟨place, hholds, hopened⟩ := h
  have hhere : place a.current = b.path := hopened.place_head
  refine ⟨place, ?_, ?_⟩
  · rw [b.finish_edit]
    exact holds_put hholds hhere (isSome_find?_path b) hnode (hshell _ (shell_here hholds hhere))
  · rw [b.path_edit, hwalk]
    exact hopened

theorem edit_of_ok {a a' : Arena} {e : Edit} (h : a.step e = .ok a') :
    a.edit e = a' := by
  rw [Arena.edit, edit?, h]
  rfl

/-- A step that cannot be taken changes nothing. -/
theorem edit_of_error {a : Arena} {e : Edit} {fault : BuildFault} (h : a.step e = .error fault) :
    a.edit e = a := by
  rw [Arena.edit, edit?, h]
  rfl

/-- To leave a namespace moves nothing, in the array as in the finished tree. -/
theorem Follows.leave (h : a.Follows b) : (a.edit .leave).Follows (b.edit .leave) := by
  obtain ⟨place, hholds, hopened⟩ := h
  have hholds' : a.toLevels.Holds place (b.edit .leave).finish := by
    refine hholds.of_shell_eq fun q => ?_
    rw [b.finish_edit, Edit.shell_level_update _ (isSome_find?_path b)]
    split
    · rename_i hq
      rw [hq]
      rfl
    · rfl
  unfold Follows
  rw [b.path_edit]
  by_cases hstack : a.stack.length ≤ 1
  · have hleave : a.step .leave = .error .noOpenNamespace := if_pos hstack
    have hpath : b.path = [] := by
      have := hopened.length_eq
      exact List.length_eq_zero_iff.1 (by omega)
    rw [hpath] at hopened ⊢
    rw [edit_of_error hleave]
    exact ⟨place, hholds', hopened⟩
  · have hleave : a.step .leave = .ok _ := if_neg hstack
    rw [edit_of_ok hleave]
    exact ⟨place, hholds', hopened.tail hstack⟩

/-- To open a namespace goes to its place, which may be a new one. -/
theorem Follows.enter (h : a.Follows b) (key : NamespaceKey) :
    (a.enter key).Follows (b.edit (.enter key)) := by
  obtain ⟨place, hholds, hopened⟩ := h
  have hhere : place a.current = b.path := hopened.place_head
  have hkeys : a.here.children.map Prod.fst = (b.finish.level b.path).keys :=
    congrArg (·.2.2) (shell_here hholds hhere)
  unfold Follows Arena.enter
  rw [b.finish_edit, b.path_edit]
  split
  · rename_i i hi
    have hmem := mem_of_lookup hi
    have hknown : key ∈ (b.finish.level b.path).keys :=
      hkeys ▸ List.mem_map.2 ⟨_, hmem, rfl⟩
    refine ⟨place, hholds.of_shell_eq fun q => ?_, hopened.inner ?_⟩
    · rw [Edit.shell_level_update _ (isSome_find?_path b)]
      split
      · rename_i hq
        rw [hq, Edit.shell_effect]
        simp [Tree.shell, Edit.note?, Edit.entry?, Edit.key?, hknown]
      · rfl
    · rw [← hhere]
      exact hholds.child _ _ a.getElem?_current _ hmem
  · rename_i hnone
    have hnew : key ∉ (b.finish.level b.path).keys := by
      rw [← hkeys]
      intro hmem
      obtain ⟨c, hc, rfl⟩ := List.mem_map.1 hmem
      simpa using List.lookup_eq_none_iff.1 hnone c hc
    refine ⟨_, holds_branch hholds hhere (isSome_find?_path b) hnew, .inner (hopened.congr ?_) ?_⟩
    · exact fun i hi => if_neg (Nat.ne_of_lt (a.stack_lt i hi))
    · exact if_pos rfl

/-- **The arena takes each step as the builder does.** -/
theorem Follows.edit (h : a.Follows b) (e : Edit) : (a.edit e).Follows (b.edit e) := by
  cases e with
  | enter key => exact h.enter key
  | leave => exact h.leave
  | entry e =>
    refine h.put (.entry e) { a.here with entries := a.here.entries.push e } rfl rfl fun t ht => ?_
    simp only [Node.shell, Tree.shell, Prod.mk.injEq] at ht
    simp [Edit.shell_effect, Node.shell, Edit.note?, Edit.entry?, Edit.key?, ht]
  | note n =>
    refine h.put (.note n) { a.here with notes := a.here.notes.push n } rfl rfl fun t ht => ?_
    simp only [Node.shell, Tree.shell, Prod.mk.injEq] at ht
    simp [Edit.shell_effect, Node.shell, Edit.note?, Edit.entry?, Edit.key?, ht]

theorem follows_after (edits : List Edit) :
    (empty.after edits).Follows (Builder.empty.after edits) := by
  have hrun : ∀ {a : Arena} {b : Builder}, a.Follows b → ∀ edits : List Edit,
      (a.after edits).Follows (b.after edits) := by
    intro a b h edits
    induction edits generalizing a b with
    | nil => exact h
    | cons e edits ih => exact ih (h.edit e)
  exact hrun follows_empty edits

/-- **The arena builds the direct tree.**  After any steps, the arena finishes the tree that the
builder finishes.  At each path that tree holds the declarations, task notes and namespaces that
were added while the path was open: in the order of the steps, the namespaces in that of their
first opening and none twice.  It has as many declarations as were added.  A namespace cannot be
left exactly where none is open; this is the only step that fails, and then it changes nothing. -/
theorem finish_after (edits : List Edit) :
    let a := empty.after edits
    let t := a.finish
    t = (Builder.empty.after edits).finish ∧
      (∀ path, (t.level path).entries.toList = Edit.added Edit.entry? path edits ∧
        (t.level path).notes.toList = Edit.added Edit.note? path edits ∧
        (t.level path).keys = (Edit.added Edit.key? path edits).eraseDups ∧
        (t.level path).keys.Nodup) ∧
      t.total = (edits.filterMap Edit.entry?).length ∧
      (a.leave = .error .noOpenNamespace ↔ Edit.pathAfter edits = []) ∧
      ∀ e fault, a.step e = .error fault →
        e = .leave ∧ fault = .noOpenNamespace ∧ a.edit e = a := by
  intro a t
  obtain ⟨place, hholds, hopened⟩ := follows_after edits
  have htree : t = (Builder.empty.after edits).finish :=
    (assemble_of_holds hholds (Builder.keys_nodup_after edits) _ _ 0 _ (by rw [hholds.root]; rfl)
      fun _ _ => rfl).1
  refine ⟨htree, fun path => ?_, ?_, ?_, fun e fault h => ?_⟩
  · rw [htree]
    have hshell := Builder.shell_after edits path
    exact ⟨congrArg (·.2.1) hshell, congrArg (·.1) hshell, congrArg (·.2.2) hshell,
      Builder.keys_nodup_after edits path⟩
  · rw [htree, Builder.total_after]
  · have hlength : a.stack.length = (Builder.empty.after edits).path.length + 1 :=
      hopened.length_eq
    rw [← Builder.path_after, ← List.length_eq_zero_iff, leave]
    split <;> simp only [true_iff, reduceCtorEq, false_iff] <;> omega
  · have hunchanged := edit_of_error h
    cases e with
    | leave =>
      cases fault
      exact ⟨rfl, rfl, hunchanged⟩
    | _ => cases h

end Arena

end AcsOutline
