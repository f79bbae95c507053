import AcsOutline.Scanner.Command

/-!
# Scopes leave no trace

A `Plan` is a list of commands in which every scope that begins also ends, written as a tree.
The main result (`after_commandsAll_eq_after_flattenAll`) is that looking ahead is free: a
scanner ends in the same state when every peek, and every scope that is rolled back with all
that it contains, is left out, and only the contents of the other scopes are carried out.

To roll back is to cut the trivia down to a number that was noted when the scope began, so it
has to be known that nothing was done to those trivia in between.  That is the relation
`Scanner.Follows`: commands that begin and end no scope keep to it, and by the time a scope ends,
all that is left of its contents are such commands.
-/

namespace AcsOutline

namespace Command

/-- Whether a command begins and ends no scope. -/
def isPlain : Command → Bool
  | beginScope | acceptScope | rollBackScope => false
  | _ => true

/-- The command that ends a scope. -/
def endScope (accepted : Bool) : Command :=
  if accepted then acceptScope else rollBackScope

/-- Whether a list of commands, within a number of open scopes, ends each of them and all that
it begins, and nothing else. -/
def nests : Nat → List Command → Bool
  | depth, [] => depth == 0
  | depth, beginScope :: cs => nests (depth + 1) cs
  | 0, acceptScope :: _ | 0, rollBackScope :: _ => false
  | depth + 1, acceptScope :: cs | depth + 1, rollBackScope :: cs => nests depth cs
  | depth, _ :: cs => nests depth cs

end Command

/-- Commands with well-nested scopes, as a tree. -/
inductive Plan where
  /-- A command that begins and ends no scope. -/
  | command (c : Command) (plain : c.isPlain = true)
  /-- A scope with what is done in it, and whether it is accepted in the end. -/
  | scope (accepted : Bool) (body : List Plan)

namespace Plan

mutual

/-- The commands of a plan, in order. -/
def commands : Plan → List Command
  | command c _ => [c]
  | scope accepted body => .beginScope :: (commandsAll body ++ [.endScope accepted])

/-- The commands of a list of plans, in order. -/
def commandsAll : List Plan → List Command
  | [] => []
  | p :: ps => p.commands ++ commandsAll ps

end

mutual

/-- The commands that are left of a plan without peeks, without the scopes that are rolled back
and all that they contain, and with only the contents of the other scopes. -/
def flatten : Plan → List Command
  | command c _ => if c = .peek then [] else [c]
  | scope true body => flattenAll body
  | scope false _ => []

/-- The commands that are left of a list of plans. -/
def flattenAll : List Plan → List Command
  | [] => []
  | p :: ps => p.flatten ++ flattenAll ps

end

mutual

/-- What is left of a plan begins and ends no scope and does not look ahead. -/
theorem plain_of_mem_flatten (p : Plan) :
    ∀ c ∈ p.flatten, c.isPlain = true ∧ c ≠ .peek := by
  intro c hc
  cases p with
  | command d plain =>
    by_cases hd : d = .peek
    · simp [flatten, hd] at hc
    · obtain rfl : c = d := by simpa [flatten, hd] using hc
      exact ⟨plain, hd⟩
  | scope accepted body =>
    cases accepted with
    | true => exact plain_of_mem_flattenAll body c (by simpa only [flatten] using hc)
    | false => simp [flatten] at hc

theorem plain_of_mem_flattenAll (ps : List Plan) :
    ∀ c ∈ flattenAll ps, c.isPlain = true ∧ c ≠ .peek := by
  intro c hc
  cases ps with
  | nil => simp [flattenAll] at hc
  | cons p ps =>
    rw [flattenAll] at hc
    rcases List.mem_append.1 hc with hc | hc
    · exact plain_of_mem_flatten p c hc
    · exact plain_of_mem_flattenAll ps c hc

end

end Plan

namespace Workbench

/-- A plain command moves the scanner on, in the same way whatever scopes are open, and leaves
them alone. -/
theorem step_plain (s : Scanner) {c : Command} (hc : c.isPlain = true) :
    ∃ t : Scanner, t.Follows s ∧ ∀ saved, (step ⟨s, saved⟩ c).2 = ⟨t, saved⟩ := by
  -- where a reading ends does not depend on the scopes that are open
  have hperform : ∀ {α : Type} {p : Reading α} (reply : α → Command.Reply), p.Forward →
      ∃ t : Scanner, t.Follows s ∧ ∀ saved, (perform ⟨s, saved⟩ p reply).2 = ⟨t, saved⟩ := by
    intro α p reply hp
    exact ⟨Reading.Result.scanner (p s), hp s, fun saved => perform_snd _ _ _⟩
  cases c with
  | advance => exact hperform _ Reading.forward_advance
  | next => exact hperform _ Reading.forward_next
  | peek => exact hperform _ Reading.forward_peek
  | value => exact hperform _ Value.forward_read
  | setMask mask => exact ⟨s.withMask mask, s.follows_withMask mask, fun _ => rfl⟩
  | triviaSince mark => exact ⟨s, .refl s, fun _ => rfl⟩
  | idle => exact ⟨s, .refl s, fun _ => rfl⟩
  | beginScope => cases hc
  | acceptScope => cases hc
  | rollBackScope => cases hc

/-- Any number of plain commands. -/
theorem after_plain (s : Scanner) {cs : List Command} (hcs : ∀ c ∈ cs, c.isPlain = true) :
    ∃ t : Scanner, t.Follows s ∧ ∀ saved, after ⟨s, saved⟩ cs = ⟨t, saved⟩ := by
  induction cs generalizing s with
  | nil => exact ⟨s, .refl s, fun _ => rfl⟩
  | cons c cs ih =>
    obtain ⟨t, ht, hstep⟩ := step_plain s (hcs c (by simp))
    obtain ⟨u, hu, hafter⟩ := ih t fun d hd => hcs d (by simp [hd])
    exact ⟨u, hu.trans ht, fun saved => by rw [after_cons, hstep, hafter]⟩

/-- A peek changes nothing. -/
theorem step_peek (w : Workbench) : (w.step .peek).2 = w := by
  simp only [step, perform, Reading.peek_eq]

/-- A scope with plain contents: accepting it keeps them, rolling it back undoes them. -/
theorem after_scope (w : Workbench) {cs : List Command} (hcs : ∀ c ∈ cs, c.isPlain = true)
    (accepted : Bool) :
    w.after (.beginScope :: (cs ++ [.endScope accepted])) = if accepted then w.after cs else w := by
  obtain ⟨s, saved⟩ := w
  obtain ⟨t, ht, hafter⟩ := after_plain s hcs
  have hbody : after ⟨s, saved⟩ (.beginScope :: (cs ++ [.endScope accepted])) =
      (step ⟨t, s.snapshot :: saved⟩ (.endScope accepted)).2 := by
    rw [after_cons, after_append]
    simp only [step, hafter, after_cons, after_nil]
  rw [hbody]
  cases accepted with
  | true => exact (hafter saved).symm
  | false =>
    show (⟨t.restore s.snapshot, saved⟩ : Workbench) = ⟨s, saved⟩
    rw [Scanner.restore_snapshot ht]

/-! ## Plans -/

open Plan

mutual

/-- **A plan does what is left of it.** -/
theorem after_commands (p : Plan) (w : Workbench) : w.after p.commands = w.after p.flatten := by
  cases p with
  | command c plain =>
    by_cases hc : c = .peek
    · subst hc
      simp only [commands, flatten, if_true, after_cons, after_nil, step_peek]
    · simp only [commands, flatten, if_neg hc]
  | scope accepted body =>
    -- inside the scope the body may be replaced by what is left of it, which is plain
    have hbody : w.after (.beginScope :: (commandsAll body ++ [.endScope accepted])) =
        w.after (.beginScope :: (flattenAll body ++ [.endScope accepted])) := by
      simp only [after_cons, after_append, after_commandsAll body]
    rw [commands, hbody, after_scope w fun c hc => (plain_of_mem_flattenAll body c hc).1]
    cases accepted <;> simp [flatten]

/-- A list of plans does what is left of it. -/
theorem after_commandsAll (ps : List Plan) (w : Workbench) :
    w.after (commandsAll ps) = w.after (flattenAll ps) := by
  cases ps with
  | nil => rfl
  | cons p ps =>
    rw [commandsAll, flattenAll, after_append, after_append, after_commands p,
      after_commandsAll ps]

end

/-- **Looking ahead leaves no trace.**  On every source, commands with well-nested scopes end on
the same workbench, with all that the scanner holds, as what is left of them without peeks and
without the scopes that are rolled back; and what is left has neither peeks nor scopes. -/
theorem after_commandsAll_eq_after_flattenAll (source : List Char) (ps : List Plan) :
    (ofScanner (.ofList source)).after (commandsAll ps) =
        (ofScanner (.ofList source)).after (flattenAll ps) ∧
      ∀ c ∈ flattenAll ps, c.isPlain = true ∧ c ≠ .peek :=
  ⟨after_commandsAll ps _, plain_of_mem_flattenAll ps⟩

end Workbench

namespace Plan

open Command

theorem nests_plain {c : Command} (hc : c.isPlain = true) (depth : Nat) (cs : List Command) :
    nests depth (c :: cs) = nests depth cs := by
  cases c <;> first | rfl | cases hc

theorem nests_endScope (accepted : Bool) (depth : Nat) (cs : List Command) :
    nests (depth + 1) (.endScope accepted :: cs) = nests depth cs := by
  cases accepted <;> rfl

/-- A command is plain, or it begins or ends a scope. -/
theorem plain_or_scope (c : Command) :
    c.isPlain = true ∨ c = .beginScope ∨ ∃ accepted, c = .endScope accepted := by
  cases c with
  | beginScope => exact Or.inr (Or.inl rfl)
  | acceptScope => exact Or.inr (Or.inr ⟨true, rfl⟩)
  | rollBackScope => exact Or.inr (Or.inr ⟨false, rfl⟩)
  | _ => exact Or.inl rfl

/-- What follows the plans at the front of well-nested commands: nothing, or the end of the
innermost open scope. -/
def EndsPlans (depth : Nat) (tail : List Command) : Prop :=
  (depth = 0 ∧ tail = []) ∨
    ∃ (around : Nat) (accepted : Bool) (rest : List Command),
      depth = around + 1 ∧ tail = .endScope accepted :: rest ∧ nests around rest = true

/-- Well-nested commands are those of a list of plans, up to the end of the innermost open
scope. -/
theorem exists_commandsAll_append (depth : Nat) (cs : List Command)
    (h : nests depth cs = true) :
    ∃ (ps : List Plan) (tail : List Command),
      cs = commandsAll ps ++ tail ∧ EndsPlans depth tail := by
  cases cs with
  | nil =>
    have hdepth : depth = 0 := by simpa [nests] using h
    exact ⟨[], [], rfl, Or.inl ⟨hdepth, rfl⟩⟩
  | cons c cs =>
    rcases plain_or_scope c with hc | rfl | ⟨accepted, rfl⟩
    · rw [nests_plain hc] at h
      obtain ⟨ps, tail, hcs, htail⟩ := exists_commandsAll_append depth cs h
      exact ⟨.command c hc :: ps, tail, by rw [hcs]; rfl, htail⟩
    · -- the contents of the scope come first, and what follows the scope after its end
      obtain ⟨body, _, hcs, ⟨hdepth, -⟩ | ⟨around, accepted, rest, hdepth, rfl, hrest⟩⟩ :=
        exists_commandsAll_append (depth + 1) cs h
      · omega
      · obtain rfl : depth = around := by omega
        have hlt : rest.length < cs.length := by
          rw [hcs, List.length_append, List.length_cons]
          omega
        obtain ⟨ps, tail, hps, htail⟩ := exists_commandsAll_append depth rest hrest
        refine ⟨.scope accepted body :: ps, tail, ?_, htail⟩
        rw [hcs, hps, commandsAll, commands]
        simp
    · cases depth with
      | zero => cases accepted <;> cases h
      | succ depth =>
        rw [nests_endScope] at h
        exact ⟨[], .endScope accepted :: cs, rfl, Or.inr ⟨depth, accepted, cs, rfl, rfl, h⟩⟩
termination_by cs.length

mutual

theorem nests_commands_append (p : Plan) (depth : Nat) (cs : List Command) :
    nests depth (p.commands ++ cs) = nests depth cs := by
  cases p with
  | command c plain => exact nests_plain plain depth cs
  | scope accepted body =>
    have hscope : commands (.scope accepted body) ++ cs =
        .beginScope :: (commandsAll body ++ .endScope accepted :: cs) := by
      rw [commands]
      simp
    rw [hscope]
    show nests (depth + 1) (commandsAll body ++ .endScope accepted :: cs) = nests depth cs
    rw [nests_commandsAll_append body, nests_endScope]

theorem nests_commandsAll_append (ps : List Plan) (depth : Nat) (cs : List Command) :
    nests depth (commandsAll ps ++ cs) = nests depth cs := by
  cases ps with
  | nil => rfl
  | cons p ps =>
    rw [commandsAll, List.append_assoc, nests_commands_append p, nests_commandsAll_append ps]

end

/-- **Plans are all well-nested lists of commands**, and only these. -/
theorem nests_zero_iff {cs : List Command} :
    nests 0 cs = true ↔ ∃ ps, commandsAll ps = cs := by
  constructor
  · intro h
    obtain ⟨ps, tail, hcs, ⟨-, rfl⟩ | ⟨around, _, _, hdepth, -⟩⟩ := exists_commandsAll_append 0 cs h
    · exact ⟨ps, by rw [hcs, List.append_nil]⟩
    · omega
  · rintro ⟨ps, rfl⟩
    have h := nests_commandsAll_append ps 0 []
    rw [List.append_nil] at h
    rw [h]
    rfl

end Plan

end AcsOutline
