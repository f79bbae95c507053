import AcsOutline.Token

/-!
# Matching parentheses

Which parentheses of a list of tokens belong together is said without a stack: an opening and a
closing one do when what stands between them is `Balanced`.  So a closing parenthesis has its
partner in what stands before it (`ClosesGroup`), and an opening one in what follows
(`OpensGroup`).

Both are found by counting.  `depth` counts from the left how many groups are open, and a closing
parenthesis has a partner exactly where one is (`closesGroup_iff`); `excess` counts from the
right how many closing parentheses wait for an opening one (`opensGroup_iff`).  At the end of a
list as many groups are open as opening parentheses have no partner (`depth_eq_openCount`).
-/

namespace AcsOutline

namespace Token

/-! ## Partners -/

/-- Tokens among which every parenthesis has its partner. -/
inductive Balanced : List Token → Prop
  | nil : Balanced []
  | plain {t : Token} {ts : List Token} (hopen : t.kind ≠ .lparen) (hclose : t.kind ≠ .rparen)
      (hts : Balanced ts) : Balanced (t :: ts)
  | group {o c : Token} {inner ts : List Token} (ho : o.kind = .lparen) (hc : c.kind = .rparen)
      (hinner : Balanced inner) (hts : Balanced ts) : Balanced (o :: (inner ++ c :: ts))

theorem Balanced.append {ts us : List Token} (hts : Balanced ts) (hus : Balanced us) :
    Balanced (ts ++ us) := by
  induction hts with
  | nil => exact hus
  | plain hopen hclose _ ih => exact .plain hopen hclose ih
  | group ho hc hinner _ _ ih =>
    rw [List.cons_append, List.append_assoc, List.cons_append]
    exact .group ho hc hinner ih

/-- A closing parenthesis after these tokens has its partner among them. -/
def ClosesGroup (before : List Token) : Prop :=
  ∃ left o inner, before = left ++ o :: inner ∧ o.kind = .lparen ∧ Balanced inner

/-- An opening parenthesis before these tokens has its partner among them. -/
def OpensGroup (after : List Token) : Prop :=
  ∃ inner c right, after = inner ++ c :: right ∧ c.kind = .rparen ∧ Balanced inner

/-! ## Counting from the left -/

/-- How many groups are open after a token, given how many were before it. -/
def depthStep (d : Nat) (t : Token) : Nat :=
  if t.kind = .lparen then d + 1 else if t.kind = .rparen then d - 1 else d

/-- How many groups are open after a list of tokens; a closing parenthesis closes nothing where
none is. -/
def depth (ts : List Token) : Nat :=
  ts.foldl depthStep 0

theorem depthStep_of_open {t : Token} (h : t.kind = .lparen) (d : Nat) :
    depthStep d t = d + 1 :=
  if_pos h

theorem depthStep_of_close {t : Token} (h : t.kind = .rparen) (d : Nat) :
    depthStep d t = d - 1 := by
  have hopen : t.kind ≠ .lparen := by
    rw [h]
    decide
  rw [depthStep, if_neg hopen, if_pos h]

theorem depthStep_of_plain {t : Token} (hopen : t.kind ≠ .lparen) (hclose : t.kind ≠ .rparen)
    (d : Nat) : depthStep d t = d := by
  rw [depthStep, if_neg hopen, if_neg hclose]

theorem depth_snoc (ts : List Token) (t : Token) :
    depth (ts ++ [t]) = depthStep (depth ts) t := by
  rw [depth, List.foldl_append]
  rfl

/-- Balanced tokens leave as many groups open as there were. -/
theorem Balanced.foldl_depthStep {ts : List Token} (h : Balanced ts) (d : Nat) :
    ts.foldl depthStep d = d := by
  induction h generalizing d with
  | nil => rfl
  | plain hopen hclose _ ih => rw [List.foldl_cons, depthStep_of_plain hopen hclose, ih]
  | group ho hc _ _ ihinner ih =>
    rw [List.foldl_cons, depthStep_of_open ho, List.foldl_append, ihinner, List.foldl_cons,
      depthStep_of_close hc, Nat.add_sub_cancel, ih]

/-- Where a group is open, the innermost one began somewhere, and all is balanced since. -/
theorem exists_innermost (ts : List Token) {d : Nat} (h : depth ts = d + 1) :
    ∃ left o inner, ts = left ++ o :: inner ∧ o.kind = .lparen ∧ Balanced inner ∧
      depth left = d := by
  rcases List.eq_nil_or_concat ts with rfl | ⟨ts', t, hts⟩
  · cases h
  obtain rfl : ts = ts' ++ [t] := hts.trans List.concat_eq_append
  rw [depth_snoc] at h
  by_cases hopen : t.kind = .lparen
  · rw [depthStep_of_open hopen] at h
    exact ⟨ts', t, [], rfl, hopen, .nil, Nat.succ.inj h⟩
  by_cases hclose : t.kind = .rparen
  · -- the group that `t` closes is the last piece of the one that is innermost then
    rw [depthStep_of_close hclose] at h
    obtain ⟨left, o, inner, hts, ho, hinner, hleft⟩ :=
      exists_innermost ts' (d := d + 1) (by omega)
    obtain ⟨left', o', inner', hleft', ho', hinner', hdepth⟩ := exists_innermost left hleft
    refine ⟨left', o', inner' ++ o :: (inner ++ [t]), ?_, ho', ?_, hdepth⟩
    · simp only [hts, hleft', List.append_assoc, List.cons_append]
    · exact hinner'.append (.group ho hclose hinner .nil)
  · rw [depthStep_of_plain hopen hclose] at h
    obtain ⟨left, o, inner, hts, ho, hinner, hleft⟩ := exists_innermost ts' h
    refine ⟨left, o, inner ++ [t], ?_, ho, ?_, hleft⟩
    · rw [hts, List.append_assoc, List.cons_append]
    · exact hinner.append (.plain hopen hclose .nil)
termination_by ts.length
decreasing_by
  all_goals subst_vars
  all_goals simp

/-- **A closing parenthesis has a partner exactly where a group is open.** -/
theorem closesGroup_iff (before : List Token) : ClosesGroup before ↔ 0 < depth before := by
  constructor
  · rintro ⟨left, o, inner, rfl, ho, hinner⟩
    rw [depth, List.foldl_append, List.foldl_cons, hinner.foldl_depthStep, depthStep_of_open ho]
    exact Nat.succ_pos _
  · intro h
    obtain ⟨d, hd⟩ := Nat.exists_eq_add_one.2 h
    obtain ⟨left, o, inner, hbefore, ho, hinner, -⟩ := exists_innermost before hd
    exact ⟨left, o, inner, hbefore, ho, hinner⟩

instance (before : List Token) : Decidable (ClosesGroup before) :=
  decidable_of_iff _ (closesGroup_iff before).symm

/-! ## Counting from the right -/

/-- How many closing parentheses of a list of tokens wait for an opening one before it. -/
def excess : List Token → Nat
  | [] => 0
  | t :: ts =>
    if t.kind = .rparen then excess ts + 1
    else if t.kind = .lparen then excess ts - 1
    else excess ts

theorem excess_of_close {t : Token} (h : t.kind = .rparen) (ts : List Token) :
    excess (t :: ts) = excess ts + 1 :=
  if_pos h

theorem excess_of_open {t : Token} (h : t.kind = .lparen) (ts : List Token) :
    excess (t :: ts) = excess ts - 1 := by
  have hclose : t.kind ≠ .rparen := by
    rw [h]
    decide
  rw [excess, if_neg hclose, if_pos h]

theorem excess_of_plain {t : Token} (hopen : t.kind ≠ .lparen) (hclose : t.kind ≠ .rparen)
    (ts : List Token) : excess (t :: ts) = excess ts := by
  rw [excess, if_neg hclose, if_neg hopen]

/-- Balanced tokens do not change what waits behind them. -/
theorem Balanced.excess_append {ts : List Token} (h : Balanced ts) (us : List Token) :
    excess (ts ++ us) = excess us := by
  induction h generalizing us with
  | nil => rfl
  | plain hopen hclose _ ih => rw [List.cons_append, excess_of_plain hopen hclose, ih]
  | group ho hc _ _ ihinner ih =>
    rw [List.cons_append, excess_of_open ho, List.append_assoc, ihinner, List.cons_append,
      excess_of_close hc, Nat.add_sub_cancel, ih]

/-- Where a closing parenthesis waits, the first one that does stands somewhere, and all is
balanced before it. -/
theorem exists_first_waiting (ts : List Token) {d : Nat} (h : excess ts = d + 1) :
    ∃ inner c right, ts = inner ++ c :: right ∧ c.kind = .rparen ∧ Balanced inner ∧
      excess right = d := by
  cases ts with
  | nil => cases h
  | cons t ts' =>
    by_cases hclose : t.kind = .rparen
    · rw [excess_of_close hclose] at h
      exact ⟨[], t, ts', rfl, hclose, .nil, Nat.succ.inj h⟩
    by_cases hopen : t.kind = .lparen
    · -- the group that `t` opens comes first, and another parenthesis waits after it
      rw [excess_of_open hopen] at h
      obtain ⟨inner, c, right, hts, hc, hinner, hright⟩ :=
        exists_first_waiting ts' (d := d + 1) (by omega)
      obtain ⟨inner', c', right', hright', hc', hinner', hexcess⟩ :=
        exists_first_waiting right hright
      refine ⟨t :: (inner ++ c :: inner'), c', right', ?_, hc', ?_, hexcess⟩
      · simp only [hts, hright', List.append_assoc, List.cons_append]
      · exact .group hopen hc hinner hinner'
    · rw [excess_of_plain hopen hclose] at h
      obtain ⟨inner, c, right, hts, hc, hinner, hright⟩ := exists_first_waiting ts' h
      refine ⟨t :: inner, c, right, ?_, hc, ?_, hright⟩
      · rw [hts, List.cons_append]
      · exact .plain hopen hclose hinner
termination_by ts.length
decreasing_by
  all_goals subst_vars
  all_goals simp
  omega

/-- **An opening parenthesis has a partner exactly where a closing one waits behind it.** -/
theorem opensGroup_iff (after : List Token) : OpensGroup after ↔ 0 < excess after := by
  constructor
  · rintro ⟨inner, c, right, rfl, hc, hinner⟩
    rw [hinner.excess_append, excess_of_close hc]
    exact Nat.succ_pos _
  · intro h
    obtain ⟨d, hd⟩ := Nat.exists_eq_add_one.2 h
    obtain ⟨inner, c, right, hafter, hc, hinner, -⟩ := exists_first_waiting after hd
    exact ⟨inner, c, right, hafter, hc, hinner⟩

instance (after : List Token) : Decidable (OpensGroup after) :=
  decidable_of_iff _ (opensGroup_iff after).symm

/-! ## Parentheses without a partner -/

/-- The tokens that follow `before`, without the closing parentheses that have no partner. -/
def kept (before : List Token) : List Token → List Token
  | [] => []
  | t :: ts =>
    if t.kind = .rparen ∧ ¬ClosesGroup before then kept (before ++ [t]) ts
    else t :: kept (before ++ [t]) ts

/-- How many opening parentheses of a list of tokens have no partner. -/
def openCount : List Token → Nat
  | [] => 0
  | t :: ts => (if t.kind = .lparen ∧ ¬OpensGroup ts then 1 else 0) + openCount ts

/-- The groups that are open after a list of tokens, given how many were open before it: those
that began in it without an end, and those before it that it does not end. -/
theorem foldl_depthStep_eq (d : Nat) (ts : List Token) :
    ts.foldl depthStep d = openCount ts + (d - excess ts) := by
  induction ts generalizing d with
  | nil => simp [openCount, excess]
  | cons t ts ih =>
    have hopens := opensGroup_iff ts
    rw [List.foldl_cons, ih, openCount]
    by_cases hopen : t.kind = .lparen
    · -- it takes the first closing parenthesis that waits behind it, if there is one
      rw [depthStep_of_open hopen, excess_of_open hopen]
      by_cases hwaits : 0 < excess ts
      · rw [if_neg fun h => h.2 (hopens.2 hwaits)]
        omega
      · rw [if_pos ⟨hopen, fun h => hwaits (hopens.1 h)⟩]
        omega
    · rw [if_neg fun h => hopen h.1]
      by_cases hclose : t.kind = .rparen
      · rw [depthStep_of_close hclose, excess_of_close hclose]
        omega
      · rw [depthStep_of_plain hopen hclose, excess_of_plain hopen hclose]
        omega

/-- **As many groups are open in the end as opening parentheses have no partner.** -/
theorem depth_eq_openCount (ts : List Token) : depth ts = openCount ts := by
  rw [depth, foldl_depthStep_eq, Nat.zero_sub, Nat.add_zero]

end Token

end AcsOutline
