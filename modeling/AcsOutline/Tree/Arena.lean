import AcsOutline.Tree.Builder

/-!
# Building a tree in an arena

An `Arena` keeps all levels of a tree under construction in one array, in which a level names
those below it by their places.  The open levels are a stack of places, so to leave a namespace
moves nothing.  `Arena.finish` puts the tree together and takes each level out of the array as it
comes to it: a level that two others named would be empty the second time.
-/

namespace AcsOutline

/-- Why a step in building a tree is not taken. -/
inductive BuildFault where
  /-- A namespace is to be left, and only the outermost level is open. -/
  | noOpenNamespace
deriving DecidableEq, Inhabited

/-- What a fault says. -/
def BuildFault.message : BuildFault → String
  | noOpenNamespace => "no namespace is open"

namespace Arena

/-- A level in the array. -/
structure Node where
  /-- The task notes found at this level, in order. -/
  notes : Array TaskNote
  /-- The declarations of this level, in order. -/
  entries : Array Entry
  /-- The namespaces of this level, each with its place, in the order in which they were first
  opened. -/
  children : List (NamespaceKey × Nat)
deriving DecidableEq, Inhabited

/-- The level that holds nothing. -/
def Node.empty : Node :=
  ⟨#[], #[], []⟩

/-- A place that a level finds for a key is one that it names. -/
theorem mem_of_lookup {cs : List (NamespaceKey × Nat)} {key : NamespaceKey} {i : Nat}
    (h : cs.lookup key = some i) : (key, i) ∈ cs := by
  obtain ⟨before, after, rfl, -⟩ := List.lookup_eq_some_iff.1 h
  exact List.mem_append_right _ List.mem_cons_self

/-- Levels that name only places in their array. -/
structure Levels where
  nodes : Array Node
  linked : ∀ node ∈ nodes, ∀ c ∈ node.children, c.2 < nodes.size

namespace Levels

/-- How often a level is named by another. -/
def links (s : Levels) : Nat :=
  (s.nodes.toList.flatMap (·.children)).length

/-- Takes a level out of its place, where an empty one is left. -/
def clear (s : Levels) (i : Nat) (hi : i < s.nodes.size) : Levels where
  nodes := s.nodes.set i .empty hi
  linked node hnode c hc := by
    rw [Array.size_set]
    rcases Array.mem_or_eq_of_mem_set hnode with h | rfl
    · exact s.linked node h c hc
    · cases hc

@[simp]
theorem size_clear (s : Levels) (i : Nat) (hi : i < s.nodes.size) :
    (s.clear i hi).nodes.size = s.nodes.size :=
  Array.size_set hi

/-- The links of the level that is taken out are gone. -/
theorem links_clear (s : Levels) (i : Nat) (hi : i < s.nodes.size) :
    (s.clear i hi).links + s.nodes[i].children.length = s.links := by
  obtain ⟨⟨nodes⟩, hlinked⟩ := s
  simp only [links, clear] at hi ⊢
  clear hlinked
  induction nodes generalizing i with
  | nil => cases hi
  | cons node nodes ih =>
    cases i with
    | zero => simp [Node.empty, Nat.add_comm]
    | succ i =>
      have h := ih i (Nat.lt_of_succ_lt_succ hi)
      simp only [List.set_toArray, List.getElem_toArray] at h ⊢
      simp only [List.set_cons_succ, List.flatMap_cons, List.length_append,
        List.getElem_cons_succ]
      omega

/-- What is left of some levels when a part of them has been taken out. -/
abbrev Rest (s : Levels) : Type :=
  { s' : Levels // s'.nodes.size = s.nodes.size ∧ s'.links ≤ s.links }

end Levels

mutual

/-- The tree below a place, whose levels are taken out, and what is left. -/
def assemble (s : Levels) (i : Nat) (hi : i < s.nodes.size) : Tree × s.Rest :=
  let node := s.nodes[i]
  let (children, rest) := assembleAll (s.clear i hi) node.children fun c hc => by
    rw [s.size_clear]
    exact s.linked node (Array.getElem_mem hi) c hc
  (⟨node.notes, node.entries, children⟩, ⟨rest.1, rest.2.1.trans (s.size_clear i hi), by
    have := s.links_clear i hi
    have := rest.2.2
    omega⟩)
termination_by (s.links, 1)
decreasing_by
  exact Prod.Lex.right' _ (Nat.le_of_eq (s.links_clear i hi)) Nat.one_pos

/-- The trees below some places, one after the other, and what is left. -/
def assembleAll (s : Levels) (cs : List (NamespaceKey × Nat)) (hcs : ∀ c ∈ cs, c.2 < s.nodes.size) :
    List (NamespaceKey × Tree) × s.Rest :=
  match cs with
  | [] => ([], ⟨s, rfl, Nat.le_refl _⟩)
  | (key, i) :: cs =>
    let (t, rest) := assemble s i (hcs _ List.mem_cons_self)
    let (ts, rest') := assembleAll rest.1 cs fun c hc => by
      rw [rest.2.1]
      exact hcs c (List.mem_cons_of_mem _ hc)
    ((key, t) :: ts, ⟨rest'.1, rest'.2.1.trans rest.2.1, Nat.le_trans rest'.2.2 rest.2.2⟩)
termination_by (s.links + cs.length, 0)
decreasing_by
  · exact Prod.Lex.left _ _ (by simp only [List.length_cons]; omega)
  · have := rest.2.2
    exact Prod.Lex.left _ _ (by simp only [List.length_cons]; omega)

end

end Arena

/-- A tree under construction, with all its levels in one array. -/
structure Arena extends Arena.Levels where
  /-- The places of the open namespaces, the innermost first, and then that of the outermost
  level. -/
  stack : List Nat
  stack_lt : ∀ i ∈ stack, i < nodes.size
  root_lt : 0 < nodes.size

namespace Arena

/-- An empty tree with its outermost level open. -/
def empty : Arena where
  nodes := #[.empty]
  linked node hnode c hc := by
    rw [List.mem_singleton.1 (Array.mem_toList_iff.2 hnode)] at hc
    cases hc
  stack := [0]
  stack_lt i hi := by
    rw [List.mem_singleton.1 hi]
    exact Nat.one_pos
  root_lt := Nat.one_pos

/-- The number of open namespaces. -/
def depth (a : Arena) : Nat :=
  a.stack.length - 1

/-- The place of the open level. -/
def current (a : Arena) : Nat :=
  a.stack.headD 0

theorem current_lt (a : Arena) : a.current < a.nodes.size := by
  unfold current
  cases h : a.stack with
  | nil => exact a.root_lt
  | cons i stack => exact a.stack_lt i (h ▸ List.mem_cons_self)

/-- The open level. -/
def here (a : Arena) : Node :=
  have := a.current_lt
  a.nodes[a.current]

theorem here_mem (a : Arena) : a.here ∈ a.nodes :=
  Array.getElem_mem a.current_lt

/-- Puts a level after the others and names it in the open one. -/
def branch (a : Arena) (key : NamespaceKey) : Levels where
  nodes := (a.nodes.push .empty).set a.current
    { a.here with children := a.here.children ++ [(key, a.nodes.size)] }
    (by rw [Array.size_push]; exact Nat.lt_succ_of_lt a.current_lt)
  linked node hnode c hc := by
    rw [Array.size_set, Array.size_push]
    rcases Array.mem_or_eq_of_mem_set hnode with h | rfl
    · rcases Array.mem_push.1 h with h | rfl
      · exact Nat.lt_succ_of_lt (a.linked node h c hc)
      · cases hc
    · rcases List.mem_append.1 hc with hc | hc
      · exact Nat.lt_succ_of_lt (a.linked _ a.here_mem c hc)
      · rw [List.mem_singleton.1 hc]
        exact Nat.lt_succ_self _

theorem size_branch (a : Arena) (key : NamespaceKey) :
    (a.branch key).nodes.size = a.nodes.size + 1 := by
  simp [branch]

/-- Opens a namespace of the open level: the one with this key, or a new one. -/
def enter (a : Arena) (key : NamespaceKey) : Arena :=
  match h : a.here.children.lookup key with
  | some i =>
    { a with
      stack := i :: a.stack
      stack_lt := fun j hj => by
        rcases List.mem_cons.1 hj with rfl | hj
        · exact a.linked _ a.here_mem (key, j) (mem_of_lookup h)
        · exact a.stack_lt j hj }
  | none =>
    { a.branch key with
      stack := a.nodes.size :: a.stack
      stack_lt := fun j hj => by
        rw [size_branch]
        rcases List.mem_cons.1 hj with rfl | hj
        · exact Nat.lt_succ_self _
        · exact Nat.lt_succ_of_lt (a.stack_lt j hj)
      root_lt := by
        rw [size_branch]
        exact Nat.succ_pos _ }

/-- Leaves the innermost open namespace; there is nothing to leave at the outermost level. -/
def leave (a : Arena) : Except BuildFault Arena :=
  if a.stack.length ≤ 1 then .error .noOpenNamespace
  else .ok { a with
    stack := a.stack.tail
    stack_lt := fun i hi => a.stack_lt i (List.mem_of_mem_tail hi) }

/-- Replaces the open level by one with the same namespaces. -/
def put (a : Arena) (node : Node) (hnode : node.children = a.here.children) : Arena where
  nodes := a.nodes.set a.current node a.current_lt
  linked n hn c hc := by
    rw [Array.size_set]
    rcases Array.mem_or_eq_of_mem_set hn with h | rfl
    · exact a.linked n h c hc
    · exact a.linked _ a.here_mem c (hnode ▸ hc)
  stack := a.stack
  stack_lt i hi := by
    rw [Array.size_set]
    exact a.stack_lt i hi
  root_lt := by
    rw [Array.size_set]
    exact a.root_lt

/-- Adds a declaration to the open level. -/
def pushEntry (a : Arena) (e : Entry) : Arena :=
  a.put { a.here with entries := a.here.entries.push e } rfl

/-- Adds a task note to the open level. -/
def pushNote (a : Arena) (n : TaskNote) : Arena :=
  a.put { a.here with notes := a.here.notes.push n } rfl

/-- The whole tree, after leaving every namespace that is still open. -/
def finish (a : Arena) : Tree :=
  (assemble a.toLevels 0 a.root_lt).1

/-- Takes one step; only to leave a namespace may fail. -/
def step (a : Arena) : Builder.Edit → Except BuildFault Arena
  | .enter key => .ok (a.enter key)
  | .leave => a.leave
  | .entry e => .ok (a.pushEntry e)
  | .note n => .ok (a.pushNote n)

/-- Takes one step, if it can be taken. -/
def edit? (a : Arena) (e : Builder.Edit) : Option Arena :=
  (a.step e).toOption

/-- Takes one step; a step that cannot be taken changes nothing. -/
def edit (a : Arena) (e : Builder.Edit) : Arena :=
  (a.edit? e).getD a

/-- Takes a list of steps. -/
def after (a : Arena) (edits : List Builder.Edit) : Arena :=
  edits.foldl edit a

end Arena

end AcsOutline
