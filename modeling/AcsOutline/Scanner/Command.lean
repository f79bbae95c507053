import AcsOutline.Value.Reader

/-!
# Scanner commands

A `Command` drives a scanner by one step; `Workbench.run` carries out a list of them.  A scope
begins at a place to which the scanner goes back, unless the scope is accepted: the workbench
keeps a snapshot of each place where an open scope began.  Scopes that are still open when
the commands run out are rolled back, the innermost first.
-/

namespace AcsOutline

/-- One step for a scanner. -/
inductive Command where
  /-- Reads a token, which may not be the end of input. -/
  | advance
  /-- Reads a token. -/
  | next
  /-- Looks at the token that follows. -/
  | peek
  /-- Selects the trivia to skip. -/
  | setMask (mask : SkipMask)
  /-- Reads a value from the current token on. -/
  | value
  /-- Looks at the trivia skipped after the first `mark` pieces. -/
  | triviaSince (mark : Nat)
  | beginScope
  /-- Ends the innermost scope and keeps what was done in it. -/
  | acceptScope
  /-- Ends the innermost scope and undoes what was done in it. -/
  | rollBackScope
  | idle
deriving DecidableEq, Inhabited

namespace Command

/-- What a command answers. -/
inductive Reply where
  | token (t : Token)
  | value (v : Value)
  | trivia (ts : List Trivia)
  | fault (f : Fault)
  | masked
  | began
  | accepted
  | rolledBack
  /-- There was nothing to do, or a scope was to end where none was open. -/
  | ignored
deriving DecidableEq, Inhabited

end Command

/-- A scanner with the scopes that are open on it. -/
structure Workbench where
  scanner : Scanner
  /-- The place where each open scope began, the innermost first. -/
  saved : List Snapshot
deriving DecidableEq, Inhabited

namespace Workbench

/-- A workbench without open scopes. -/
def ofScanner (s : Scanner) : Workbench :=
  ⟨s, []⟩

/-- The answer to a reading and the workbench after it. -/
def perform {α : Type} (w : Workbench) (p : Reading α) (reply : α → Command.Reply) :
    Command.Reply × Workbench :=
  match p w.scanner with
  | .ok a s => (reply a, { w with scanner := s })
  | .error f s => (.fault f, { w with scanner := s })

/-- A reading moves the scanner and leaves the scopes alone. -/
theorem perform_snd {α : Type} (w : Workbench) (p : Reading α) (reply : α → Command.Reply) :
    (w.perform p reply).2 = { w with scanner := Reading.Result.scanner (p w.scanner) } := by
  unfold perform
  cases p w.scanner <;> rfl

/-- Carries out one command. -/
def step (w : Workbench) : Command → Command.Reply × Workbench
  | .advance => w.perform Reading.advance .token
  | .next => w.perform Reading.next .token
  | .peek => w.perform Reading.peek .token
  | .setMask mask => (.masked, { w with scanner := w.scanner.withMask mask })
  | .value => w.perform Value.read .value
  | .triviaSince mark => (.trivia (w.scanner.triviaSince mark), w)
  | .beginScope => (.began, { w with saved := w.scanner.snapshot :: w.saved })
  | .acceptScope =>
    match w.saved with
    | [] => (.ignored, w)
    | _ :: saved => (.accepted, { w with saved })
  | .rollBackScope =>
    match w.saved with
    | [] => (.ignored, w)
    | place :: saved => (.rolledBack, ⟨w.scanner.restore place, saved⟩)
  | .idle => (.ignored, w)

/-- The workbench after a list of commands. -/
def after (w : Workbench) : List Command → Workbench
  | [] => w
  | c :: cs => (w.step c).2.after cs

@[simp]
theorem after_nil (w : Workbench) : w.after [] = w := rfl

@[simp]
theorem after_cons (w : Workbench) (c : Command) (cs : List Command) :
    w.after (c :: cs) = (w.step c).2.after cs := rfl

@[simp]
theorem after_append (w : Workbench) (cs ds : List Command) :
    w.after (cs ++ ds) = (w.after cs).after ds := by
  induction cs generalizing w with
  | nil => rfl
  | cons c cs ih => exact ih (w.step c).2

/-- Rolls back every open scope. -/
def unwind (s : Scanner) : List Snapshot → List (Command.Reply × Scanner)
  | [] => []
  | place :: saved => (.rolledBack, s.restore place) :: unwind (s.restore place) saved

/-- The answers to a list of commands, each with the scanner after it, and to the rolling
back of the scopes that are open in the end. -/
def run (w : Workbench) : List Command → List (Command.Reply × Scanner)
  | [] => unwind w.scanner w.saved
  | c :: cs =>
    let (reply, w') := w.step c
    (reply, w'.scanner) :: w'.run cs

end Workbench

namespace Scanner

/-- Every token up to and with the end of input, and the scanner there. -/
def readAll (s : Scanner) : List Token × Scanner :=
  if _h : s.next.token.kind = .eof then
    ([s.next.token], s.next)
  else
    let (tokens, last) := s.next.readAll
    (s.next.token :: tokens, last)
termination_by s.rest.length
decreasing_by exact rest_next_length_lt _h

end Scanner

end AcsOutline
