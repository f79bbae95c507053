import AcsOutline.Proofs.Grammar.Blocks
import AcsOutline.Proofs.Scanner.Tokens
import AcsOutline.Proofs.Session.Includes

/-!
# The rounds of a call

A `Ledger` follows what a user asks of a session, round by round, and keeps for each text how many
rounds were spent in it.  The rounds of a text are paid for with its tokens: a round that goes on
has read one of them at least, so the rounds spent and the tokens that are left never grow together
(`Tally.Covers`).  As a file is only entered where it is new, there is one text for each key.

Every call comes to its end so (`Session.perform_ends`).
-/

namespace AcsOutline

/-! ## The account -/

/-- A text that is read, with the rounds spent in it. -/
structure Tally where
  /-- The key of the file that the text is read as. -/
  key : String
  text : String
  rounds : Nat
deriving DecidableEq, Inhabited

namespace Tally

/-- The text of a file, before anything of it is read. -/
def start (key text : String) : Tally :=
  ⟨key, text, 0⟩

/-- One more round is spent in a text. -/
def count (t : Tally) : Tally :=
  { t with rounds := t.rounds + 1 }

/-- One more round is spent in the innermost text. -/
def countHead : List Tally → List Tally
  | [] => []
  | t :: outer => t.count :: outer

/-- All rounds that were spent in some texts. -/
def total : List Tally → Nat
  | [] => 0
  | t :: ts => t.rounds + total ts

theorem total_append (ts us : List Tally) : total (ts ++ us) = total ts + total us := by
  induction ts with
  | nil => exact (Nat.zero_add _).symm
  | cons t ts ih =>
    show t.rounds + total (ts ++ us) = t.rounds + total ts + total us
    rw [ih, Nat.add_assoc]

/-- The file that a text is read as, and the text. -/
def file (t : Tally) : String × String :=
  (t.key, t.text)

end Tally

/-- How a run ended, if it did. -/
def Step.result? : Step → Option (Option Failure × Session)
  | .finished session => some (none, session)
  | .failed failure session => some (some failure, session)
  | .reading _ => none

/-- Where a call stands, with an account of its texts. -/
structure Ledger where
  step : Step
  /-- The texts that are being read, the innermost first. -/
  opened : List Tally
  /-- The texts that were left, in order. -/
  closed : List Tally

namespace Ledger

/-- All texts of a call; the one that it began with is the last. -/
def texts (l : Ledger) : List Tally :=
  l.closed ++ l.opened

/-- The files that the texts are read as, each with its text. -/
def files (l : Ledger) : List (String × String) :=
  l.texts.map Tally.file

/-- All rounds that were spent in the texts. -/
def spent (l : Ledger) : Nat :=
  Tally.total l.texts

/-- Goes on with what is found for a request: a text is opened. -/
def enter (l : Ledger) (q : Request) (found : Finding) (r : Run) : Ledger :=
  match found.content with
  | .error _ => { l with step := q.answer found r }
  | .ok text => ⟨q.answer found r, .start q.location.key text :: l.opened, l.closed⟩

/-- Goes on after a round in the files at hand: a text that was left is closed. -/
def settle (l : Ledger) : Step → Ledger
  | .reading r =>
    let left := l.opened.length - r.files.length
    ⟨.reading r, l.opened.drop left, l.closed ++ l.opened.take left⟩
  | step => { l with step }

/-- One round of the run, counted for the innermost text. -/
def round (files : SourceFiles) (l : Ledger) : Ledger :=
  match l.step with
  | .reading r =>
    let counted := { l with opened := Tally.countHead l.opened }
    match r.advance files.resolve with
    | .over step => counted.settle step
    | .wanting q r' => counted.enter q (files.load q.location) r'
  | _ => l

/-- Several rounds. -/
def after (files : SourceFiles) (l : Ledger) : Nat → Ledger
  | 0 => l
  | n + 1 => (l.round files).after files n

end Ledger

/-- What the user asks for, before the first round. -/
def Session.opening (s : Session) (files : SourceFiles) : Session.Call → Ledger
  | .source name text =>
    let key := (files.resolve name).key
    ⟨.reading ⟨s.visit key, [.start name text (Path.parent? name)]⟩, [.start key text], []⟩
  | .file path =>
    match s.request files.resolve path none with
    | .error failure => ⟨.failed failure s, [], []⟩
    | .ok q => Ledger.enter ⟨.reading ⟨s, []⟩, [], []⟩ q (files.load q.location) ⟨s, []⟩
  | .cancel => ⟨.finished s.cancel, [], []⟩

/-- `g` is the file `f` after a declaration of it, of which at least one token was read. -/
structure OpenFile.ReadsPast (f g : OpenFile) : Prop where
  ne_eof : f.scanner.next.token.kind ≠ .eof
  readsOn : { f with scanner := f.scanner.next }.ReadsOn g

namespace Tally

variable {t : Tally} {f g : OpenFile}

/-- The rounds spent in an open file are paid for: each one took a token of it. -/
structure Covers (t : Tally) (f : OpenFile) : Prop where
  source_eq : f.source = t.text
  mask_eq : f.scanner.mask = .all
  rounds_add_left_le : t.rounds + f.scanner.left ≤ (Scanner.tokensOf t.text).length + 1

theorem covers_start (key name text : String) (directory : Option String) :
    (start key text).Covers (.start name text directory) where
  source_eq := rfl
  mask_eq := rfl
  rounds_add_left_le := by
    show 0 + (Scanner.ofString text).left ≤ _
    rw [Nat.zero_add, Scanner.left_ofString]
    exact Nat.le_refl _

namespace Covers

/-- A declaration pays for its round. -/
theorem count (h : t.Covers f) (hg : f.ReadsPast g) : t.count.Covers g := by
  obtain ⟨hne, u, hu, rfl⟩ := hg
  have hmask : f.scanner.next.mask = .all := (Scanner.mask_next _).trans h.mask_eq
  have hplain : f.scanner.next.mask.IsPlain := by
    rw [hmask]
    rfl
  have hnext : f.scanner.next.left + 1 = f.scanner.left := Scanner.left_next h.mask_eq hne
  have hleft : u.left ≤ f.scanner.next.left := hu.left_le hplain
  refine ⟨h.source_eq, hu.mask_eq.trans hmask, ?_⟩
  have := h.rounds_add_left_le
  simp only [Tally.count]
  omega

/-- The end of input pays for the last round. -/
theorem rounds_count_le (h : t.Covers f) :
    t.count.rounds ≤ (Scanner.tokensOf t.count.text).length + 1 := by
  have := h.rounds_add_left_le
  have := f.scanner.left_pos
  simp only [Tally.count]
  omega

end Covers

end Tally

/-! ## One round -/

namespace Ledger

@[simp]
theorem settle_step (l : Ledger) (step : Step) : (l.settle step).step = step := by
  cases step <;> rfl

@[simp]
theorem enter_step (l : Ledger) (q : Request) (found : Finding) (r : Run) :
    (l.enter q found r).step = q.answer found r := by
  unfold enter
  split <;> rfl

/-- The account goes along with the run. -/
theorem round_step {l : Ledger} {r : Run} (files : SourceFiles) (h : l.step = .reading r) :
    (l.round files).step = r.step files := by
  unfold round Run.step
  rw [h]
  dsimp only
  rcases r.advance files.resolve with step | ⟨q, r'⟩
  · exact settle_step _ _
  · exact enter_step _ _ _ _

/-- What a round comes to in the innermost of the open texts, `t`, the file `f` of a run with
the session `s` and the files `outer` around it. -/
inductive Turns (files : SourceFiles) (s : Session) (f : OpenFile) (outer : List OpenFile)
    (t : Tally) (opened closed : List Tally) : Ledger → Prop where
  | failed (failure : Failure) (s' : Session) :
    Turns files s f outer t opened closed ⟨.failed failure s', t.count :: opened, closed⟩
  /-- The text is read to its end. -/
  | left {s' : Session} (hs : s'.visited = s.visited) :
    Turns files s f outer t opened closed
      ⟨.reading ⟨s', outer⟩, opened, closed ++ [t.count]⟩
  /-- A declaration is read. -/
  | read {s' : Session} (hs : s'.visited = s.visited) {g : OpenFile} (hg : f.ReadsPast g) :
    Turns files s f outer t opened closed
      ⟨.reading ⟨s', g :: outer⟩, t.count :: opened, closed⟩
  /-- An include is read, and its text opened. -/
  | entered (q : Request) {text : String}
    (htext : (files.load q.location).content = .ok text) (hnew : q.location.key ∉ s.visited)
    {s' : Session} (hs : s'.visited = s.visited.push q.location.key) {g : OpenFile}
    (hg : f.ReadsPast g) :
    Turns files s f outer t opened closed
      ⟨.reading ⟨s', q.openFile text :: g :: outer⟩,
        .start q.location.key text :: t.count :: opened, closed⟩

variable {files : SourceFiles} {l : Ledger} {r : Run} {f : OpenFile} {outer : List OpenFile}
  {t : Tally} {opened : List Tally}

/-- Where no file is open, the next round is the last. -/
theorem round_of_files_nil (hstep : l.step = .reading r) (hfiles : r.files = [])
    (hopened : l.opened = []) : l.round files = { l with step := .finished r.session } := by
  unfold round
  rw [hstep]
  dsimp only
  rw [Run.advance_of_files_nil files.resolve hfiles, hopened]
  rfl

/-- What is found for an include is opened, if it is a text. -/
theorem turns_enter {closed : List Tally} {q : Request} {s s' : Session} {g : OpenFile}
    {step : Step} (hnew : q.location.key ∉ s.visited) (hs : s'.visited = s.visited) (hg : f.ReadsPast g) :
    Turns files s f outer t opened closed
      (enter ⟨step, t.count :: opened, closed⟩ q (files.load q.location) ⟨s', g :: outer⟩) := by
  unfold enter Request.answer
  dsimp only
  cases htext : (files.load q.location).content with
  | error fault => exact .failed _ _
  | ok text =>
    refine .entered q htext hnew ?_ hg
    have hcancel := (s'.visited_ite_cancel (files.load q.location).cancels).trans hs
    rw [Session.visited_visit_of_not_mem (by rwa [hcancel]), hcancel]

/-- Where the innermost file is left, its text is closed. -/
theorem settle_left {l : Ledger} {s' : Session} (hopened : l.opened = t :: opened)
    (hlength : opened.length = outer.length) :
    l.settle (.reading ⟨s', outer⟩) = ⟨.reading ⟨s', outer⟩, opened, l.closed ++ [t]⟩ := by
  have hleft : (t :: opened).length - outer.length = 1 := by
    rw [List.length_cons, hlength, Nat.add_sub_cancel_left]
  unfold settle
  dsimp only
  rw [hopened, hleft]
  rfl

/-- Where the innermost file is read on, no text is closed. -/
theorem settle_read {l : Ledger} {s' : Session} {g : OpenFile} (hopened : l.opened = t :: opened)
    (hlength : opened.length = outer.length) :
    l.settle (.reading ⟨s', g :: outer⟩) =
      ⟨.reading ⟨s', g :: outer⟩, t :: opened, l.closed⟩ := by
  have hleft : (t :: opened).length - (g :: outer).length = 0 := by
    rw [List.length_cons, List.length_cons, hlength, Nat.sub_self]
  unfold settle
  dsimp only
  rw [hopened, hleft, List.take_zero, List.append_nil]
  rfl

theorem turns_round (hstep : l.step = .reading r) (hfiles : r.files = f :: outer)
    (hopened : l.opened = t :: opened) (hlength : opened.length = outer.length) :
    Turns files r.session f outer t opened l.closed (l.round files) := by
  have hdecreases := r.advance_decreases files.resolve
  unfold round
  rw [hstep]
  dsimp only
  rw [hopened]
  rw [Run.advance_of_files _ hfiles] at hdecreases ⊢
  by_cases hcancelled : r.session.isCancelled
  · rw [if_pos hcancelled]
    exact .failed _ _
  rw [if_neg hcancelled] at hdecreases ⊢
  by_cases heof : f.scanner.next.token.kind = .eof
  · rw [Run.readFile_of_eof heof]
    dsimp only
    rw [settle_left rfl hlength]
    exact .left (Session.visited_harvest _ _ _ _)
  have hturns := Run.turns_readFile_next files.resolve r.session outer heof
  generalize Run.readFile files.resolve r.session f outer = stage at hturns hdecreases
  cases hturns with
  | left hs =>
    dsimp only
    rw [settle_left rfl hlength]
    exact .left hs.visited_eq
  | read hs hg =>
    dsimp only
    rw [settle_read rfl hlength]
    exact .read hs.visited_eq ⟨heof, hg⟩
  | failed failure hs => exact .failed _ _
  | wanting q hs hg => exact turns_enter hdecreases.2 hs.visited_eq ⟨heof, hg⟩

/-! ## What a round keeps -/

/-- A file that is read in a call and was not before, with the text that is found there. -/
def IsIncluded (files : SourceFiles) (before : Array String) (file : String × String) : Prop :=
  file.1 ∉ before ∧ ∃ location, location.key = file.1 ∧ (files.load location).content = .ok file.2

/-- The files of a call that begins with `root` where the files `before` are visited: no file is
there twice, and all but `root` are included ones. -/
structure Registers (files : SourceFiles) (before : Array String) (root : Option (String × String))
    (read : List (String × String)) : Prop where
  nodup : (read.map Prod.fst).Nodup
  included : ∀ file ∈ read.dropLast, IsIncluded files before file
  root_eq : read.getLast? = root

variable {before : Array String} {root : Option (String × String)}

/-- A file that is new may be added where it is not the last one. -/
theorem Registers.insert {left inner : List (String × String)} {file innermost : String × String}
    (h : Registers files before root (left ++ innermost :: inner))
    (hnew : file.1 ∉ (left ++ innermost :: inner).map Prod.fst)
    (hfile : IsIncluded files before file) :
    Registers files before root (left ++ file :: innermost :: inner) where
  nodup := by
    have hperm : (file :: (left ++ innermost :: inner)).Perm (left ++ file :: innermost :: inner) :=
      List.perm_middle.symm
    exact (hperm.map Prod.fst).nodup_iff.1 (List.nodup_cons.2 ⟨hnew, h.nodup⟩)
  included := by
    have hincluded := h.included
    rw [List.dropLast_append_of_ne_nil (by simp)] at hincluded ⊢
    rw [List.dropLast_cons_of_ne_nil (by simp)]
    intro other hother
    rcases List.mem_append.1 hother with hleft | hright
    · exact hincluded other (List.mem_append_left _ hleft)
    · rcases List.mem_cons.1 hright with rfl | hinner
      · exact hfile
      · exact hincluded other (List.mem_append_right _ hinner)
  root_eq := by
    rw [← h.root_eq]
    simp

/-- An account that is sound: its files are registered, and what is spent is paid for. -/
structure Sound (files : SourceFiles) (before : Array String) (root : Option (String × String))
    (l : Ledger) : Prop where
  registers : Registers files before root l.files
  /-- No text takes more rounds than it has tokens, and one. -/
  rounds_le : ∀ t ∈ l.texts, t.rounds ≤ (Scanner.tokensOf t.text).length + 1
  /-- The open texts are those of the open files. -/
  covers : ∀ r, l.step = .reading r → List.Forall₂ Tally.Covers l.opened r.files
  /-- The texts are visited, and so are the files of earlier calls. -/
  visited : ∀ r, l.step = .reading r → ∀ key, key ∈ before ∨ key ∈ l.files.map Prod.fst →
    key ∈ r.session.visited

/-- A text that is opened has its key visited from then on. -/
theorem Sound.enter {q : Request} {text : String} {s s' : Session} {closed : List Tally}
    (h : Sound files before root ⟨.reading ⟨s, f :: outer⟩, t :: opened, closed⟩)
    (htext : (files.load q.location).content = .ok text) (hnew : q.location.key ∉ s.visited)
    (hs : s'.visited = s.visited.push q.location.key) :
    Sound files before root ⟨.reading ⟨s', q.openFile text :: f :: outer⟩,
      .start q.location.key text :: t :: opened, closed⟩ := by
  have hfiles : ∀ step opened', Ledger.files ⟨step, opened', closed⟩ =
      closed.map Tally.file ++ opened'.map Tally.file := fun _ _ => List.map_append
  obtain ⟨hregisters, hrounds, hcovers, hvisited⟩ := h
  replace hvisited := hvisited _ rfl
  rw [hfiles, List.map_cons] at hregisters hvisited
  refine ⟨?_, ?_, ?_, ?_⟩
  · rw [hfiles, List.map_cons, List.map_cons]
    exact hregisters.insert (fun hread => hnew (hvisited _ (.inr hread)))
      ⟨fun hbefore => hnew (hvisited _ (.inl hbefore)), _, rfl, htext⟩
  · intro u hu
    rcases List.mem_cons.1 (List.perm_middle.mem_iff.1 hu) with rfl | hold
    · exact Nat.zero_le _
    · exact hrounds u hold
  · rintro _ ⟨⟩
    exact .cons (Tally.covers_start _ _ _ _) (hcovers _ rfl)
  · rintro _ ⟨⟩ key hkey
    rw [hfiles, List.map_cons, List.map_cons, (List.perm_middle.map Prod.fst).mem_iff,
      List.map_cons, List.mem_cons] at hkey
    rw [hs, Array.mem_push]
    rcases hkey with hbefore | rfl | hread
    · exact .inl (hvisited key (.inl hbefore))
    · exact .inr rfl
    · exact .inl (hvisited key (.inr hread))

/-- A round in an open file keeps the account sound. -/
theorem Sound.turns {l' : Ledger} (h : l.Sound files before root) (hstep : l.step = .reading r)
    (hfiles : r.files = f :: outer) (hopened : l.opened = t :: opened)
    (hturns : Turns files r.session f outer t opened l.closed l') :
    l'.Sound files before root := by
  have hopen := h.covers r hstep
  rw [hfiles, hopened] at hopen
  obtain ⟨ht, houter⟩ := List.forall₂_cons.1 hopen
  have htexts : l.texts = l.closed ++ t :: opened := by rw [texts, hopened]
  have hcounted : ∀ u ∈ l.closed ++ t.count :: opened,
      u.rounds ≤ (Scanner.tokensOf u.text).length + 1 := by
    intro u hu
    rcases List.mem_cons.1 (List.perm_middle.mem_iff.1 hu) with rfl | hother
    · exact ht.rounds_count_le
    · exact h.rounds_le u
        (htexts ▸ List.perm_middle.mem_iff.2 (List.mem_cons_of_mem _ hother))
  -- to count a round changes neither keys nor texts
  have hsame : l.files = (l.closed ++ t.count :: opened).map Tally.file := by
    simp [Ledger.files, htexts, Tally.count, Tally.file]
  have hregisters := h.registers
  have hvisited := h.visited r hstep
  rw [hsame] at hregisters hvisited
  have hread : ∀ {s' : Session} {g : OpenFile}, s'.visited = r.session.visited →
      f.ReadsPast g →
      Sound files before root ⟨.reading ⟨s', g :: outer⟩, t.count :: opened, l.closed⟩ := by
    intro s' g hs hg
    refine ⟨hregisters, hcounted, ?_, ?_⟩
    · rintro _ ⟨⟩
      exact .cons (ht.count hg) houter
    · rintro _ ⟨⟩ key hkey
      exact hs ▸ hvisited key hkey
  cases hturns with
  | failed failure s' => exact ⟨hregisters, hcounted, nofun, nofun⟩
  | @left s' hs =>
    have hmove : texts ⟨.reading ⟨s', outer⟩, opened, l.closed ++ [t.count]⟩ =
        l.closed ++ t.count :: opened := List.append_assoc _ _ _
    refine ⟨by rwa [Ledger.files, hmove], by rwa [hmove], ?_, ?_⟩
    · rintro _ ⟨⟩
      exact houter
    · rintro _ ⟨⟩ key hkey
      rw [Ledger.files, hmove] at hkey
      exact hs ▸ hvisited key hkey
  | read hs hg => exact hread hs hg
  | entered q htext hnew hs hg => exact (hread rfl hg).enter htext hnew hs

/-- A round in an open file is counted. -/
theorem spent_turns {l' : Ledger} (hopened : l.opened = t :: opened)
    (hturns : Turns files r.session f outer t opened l.closed l') : l'.spent = l.spent + 1 := by
  have hspent : l.spent = Tally.total l.closed + (t.rounds + Tally.total opened) := by
    rw [spent, texts, hopened, Tally.total_append, Tally.total]
  rw [hspent]
  cases hturns <;> simp only [spent, texts, Tally.total_append, Tally.total, Tally.count,
    Tally.start] <;> omega

/-- An account with no file open has no text open. -/
theorem Sound.opened_eq_nil (h : l.Sound files before root) (hstep : l.step = .reading r)
    (hfiles : r.files = []) : l.opened = [] := by
  have hopen := h.covers r hstep
  rw [hfiles] at hopen
  exact List.forall₂_nil_right_iff.1 hopen

/-- An account with a file open has its text open, and what a round comes to there. -/
theorem Sound.exists_turns (h : l.Sound files before root) (hstep : l.step = .reading r)
    (hfiles : r.files = f :: outer) :
    ∃ t opened, l.opened = t :: opened ∧
      Turns files r.session f outer t opened l.closed (l.round files) := by
  have hopen := h.covers r hstep
  rw [hfiles] at hopen
  obtain ⟨t, opened, -, houter, hopened⟩ := List.forall₂_cons_right_iff.1 hopen
  exact ⟨t, opened, hopened, turns_round hstep hfiles hopened houter.length_eq⟩

/-- **One round keeps the account sound.** -/
theorem Sound.round (h : l.Sound files before root) : (l.round files).Sound files before root := by
  cases hstep : l.step with
  | finished s | failed failure s =>
    rw [Ledger.round, hstep]
    exact h
  | reading r =>
    cases hfiles : r.files with
    | nil =>
      rw [round_of_files_nil hstep hfiles (h.opened_eq_nil hstep hfiles)]
      exact ⟨h.registers, h.rounds_le, nofun, nofun⟩
    | cons f outer =>
      obtain ⟨t, opened, hopened, hturns⟩ := h.exists_turns hstep hfiles
      exact h.turns hstep hfiles hopened hturns

/-- A round is counted, unless no file is open and it is the last. -/
theorem Sound.spent_round (h : l.Sound files before root) (hstep : l.step = .reading r) :
    (l.round files).spent = l.spent + 1 ∨
      (l.round files).spent = l.spent ∧ ∃ s, (l.round files).step = .finished s := by
  cases hfiles : r.files with
  | nil =>
    rw [round_of_files_nil hstep hfiles (h.opened_eq_nil hstep hfiles)]
    exact .inr ⟨rfl, _, rfl⟩
  | cons f outer =>
    obtain ⟨t, opened, hopened, hturns⟩ := h.exists_turns hstep hfiles
    exact .inl (spent_turns hopened hturns)

/-! ## A whole call -/

/-- **Any number of rounds keeps the account sound.** -/
theorem Sound.after (h : l.Sound files before root) (n : Nat) :
    (l.after files n).Sound files before root := by
  induction n generalizing l with
  | zero => exact h
  | succ n ih => exact ih h.round

end Ledger

/-- What a step comes to in the end. -/
def Step.complete (files : SourceFiles) : Step → Option Failure × Session
  | .finished session => (none, session)
  | .failed failure session => (some failure, session)
  | .reading r => r.complete files

namespace Ledger

variable {files : SourceFiles} {l : Ledger} {before : Array String}
  {root : Option (String × String)}

/-- After some rounds a call is at its end, and no more were made than are counted, and one. -/
theorem Sound.exists_result (h : l.Sound files before root) :
    ∃ n, (l.after files n).step.result? = some (l.step.complete files) ∧
      n + l.spent ≤ (l.after files n).spent + 1 := by
  cases hstep : l.step with
  | finished s | failed failure s =>
    refine ⟨0, ?_, by simp [Ledger.after]⟩
    rw [Ledger.after, hstep]
    rfl
  | reading r =>
    induction r using Run.complete.induct files generalizing l with
    | case1 r s hr | case2 r failure s hr =>
      have hround := (round_step files hstep).trans hr
      refine ⟨1, ?_, ?_⟩
      · show (l.round files).step.result? = some (r.complete files)
        rw [hround, Run.complete_eq, hr]
        rfl
      · show 1 + l.spent ≤ (l.round files).spent + 1
        rcases h.spent_round hstep with hspent | ⟨hspent, -⟩ <;> omega
    | case3 r r' hr ih =>
      have hround := (round_step files hstep).trans hr
      obtain ⟨n, hresult, hn⟩ := ih h.round hround
      refine ⟨n + 1, ?_, ?_⟩
      · show ((l.round files).after files n).step.result? = some (r.complete files)
        rw [hresult, Run.complete_eq, hr]
        rfl
      · show n + 1 + l.spent ≤ ((l.round files).after files n).spent + 1
        rcases h.spent_round hstep with hspent | ⟨-, s, hfinished⟩
        · omega
        · rw [hround] at hfinished
          cases hfinished

/-- The account of a call that opens a text. -/
theorem sound_start {s : Session} {q : String × String} {file : OpenFile}
    (h : Tally.Covers (.start q.1 q.2) file) :
    Sound files s.visited (some q) ⟨.reading ⟨s.visit q.1, [file]⟩, [.start q.1 q.2], []⟩ where
  registers := ⟨List.pairwise_singleton _ _, nofun, rfl⟩
  rounds_le t ht := by
    obtain rfl := List.mem_singleton.1 ht
    exact Nat.zero_le _
  covers := by
    rintro _ ⟨⟩
    exact .cons h .nil
  visited := by
    rintro _ ⟨⟩ key (hbefore | hkey)
    · exact Session.mem_visited_visit hbefore _
    · obtain rfl := List.mem_singleton.1 hkey
      exact Session.mem_visited_visit_self s _

/-- The account of a call that is over before a text is opened. -/
theorem sound_of_result {step : Step} (h : ∀ r, step ≠ .reading r) :
    Sound files before none ⟨step, [], []⟩ where
  registers := ⟨List.nodup_nil, nofun, rfl⟩
  rounds_le _ ht := nomatch ht
  covers r hr := (h r hr).elim
  visited r hr := (h r hr).elim

end Ledger

namespace Session

/-- A call begins with a sound account. -/
theorem sound_opening (s : Session) (files : SourceFiles) (call : Call) :
    (s.opening files call).Sound files s.visited (s.opening files call).files.getLast? := by
  cases call with
  | source name text => exact Ledger.sound_start (Tally.covers_start _ _ _ _)
  | cancel => exact Ledger.sound_of_result nofun
  | file path =>
    unfold opening
    dsimp only
    split
    · exact Ledger.sound_of_result nofun
    next q hrequest =>
      unfold Ledger.enter Request.answer
      generalize files.load q.location = found
      dsimp only
      cases found.content with
      | error fault => exact Ledger.sound_of_result nofun
      | ok text =>
        rw [← s.visited_ite_cancel found.cancels]
        exact Ledger.sound_start (q := (q.location.key, text)) (Tally.covers_start _ _ _ _)

/-- A call does what its account comes to. -/
theorem perform_eq (s : Session) (files : SourceFiles) (call : Call) :
    s.perform files call = (s.opening files call).step.complete files := by
  cases call with
  | source name text => rfl
  | cancel => rfl
  | file path =>
    unfold perform readFile opening
    dsimp only
    cases s.request files.resolve path none with
    | error failure => rfl
    | ok q =>
      dsimp only
      rw [Ledger.enter_step]
      cases q.answer (files.load q.location) ⟨s, []⟩ <;> rfl

end Session

/-! ## The repetitions inside a declaration -/

namespace Grammar

open Reading

/-- Each repetition of the grammar reads a token before it goes on, and does not go on at the end
of input.  The last eight are the items of lists (`Reading.gather`), of which none is read without
a token. -/
structure RepetitionsAdvance : Prop where
  bodies (depth : Int) (what : String) (opening : Span) :
    Progresses (skipToRound depth what opening)
  structInitializers (depth : Int) (opening : Span) : Progresses (recordRound depth opening)
  /-- Inside a struct initialiser a round that does not fail has read one token before the end of
  input, whether it goes on or not, and it goes on inside. -/
  insideInitializers {depth : Int} {opening : Span} {found : List String} {s t : Scanner}
    {r : Round (List String) (List String)} (h : depth < s.braces)
    (hok : recordRound depth opening found s = .ok r t) :
    s.next.token.kind ≠ .eof ∧ t = s.next ∧ ((∃ found', r = .again found') → depth < t.braces)
  values : Progresses Value.readPiece
  modifiers : Progresses modifierRound
  namespaceNames (isStrict : Bool) : Progresses (namespaceRound isStrict)
  declarators : variableItem.Consumes
  enumMembers : enumMember.Consumes
  structMembers : structMembers.Consumes
  structNames (type : String) : (structName type).Consumes
  instances : instanceName.Consumes
  functionParameters : (parameter functionParameter).Consumes
  scriptParameters : (parameter scriptParameter).Consumes
  typedefParameters : (parameter bareType).Consumes

theorem repetitionsAdvance : RepetitionsAdvance where
  bodies := skipToRound_progresses
  structInitializers := recordRound_progresses
  insideInitializers := recordRound_inside
  values := Value.readPiece_progresses
  modifiers := modifierRound_progresses
  namespaceNames := namespaceRound_progresses
  declarators := consumes_variableItem
  enumMembers := consumes_enumMember
  structMembers := consumes_structMembers
  structNames := consumes_structName
  instances := consumes_instanceName
  functionParameters := consumes_parameter within_functionParameter
  scriptParameters := consumes_parameter within_scriptParameter
  typedefParameters := consumes_parameter within_bareType

end Grammar

/-! ## The end of a call -/

/-- **Every call ends**, whatever the files include and whatever the texts hold.  After some
rounds it has its result.  All rounds but perhaps a last one, in which no file is open any more,
were spent in the texts of the call: no text takes more of them than it has tokens, and one; no
file is read twice, and all but the one that the call began with are new files that were found.
Inside a round, each repetition of the grammar reads tokens or ends. -/
theorem Session.perform_ends (files : SourceFiles) (s : Session) (call : Session.Call) :
    (∃ n, let l := (s.opening files call).after files n
      l.step.result? = some (s.perform files call) ∧
      n ≤ l.spent + 1 ∧
      (∀ t ∈ l.texts, t.rounds ≤ (Scanner.tokensOf t.text).length + 1) ∧
      (l.files.map Prod.fst).Nodup ∧
      l.files.getLast? = (s.opening files call).files.getLast? ∧
      ∀ file ∈ l.files.dropLast, Ledger.IsIncluded files s.visited file) ∧
    Grammar.RepetitionsAdvance := by
  have hopening := s.sound_opening files call
  obtain ⟨n, hresult, hn⟩ := hopening.exists_result
  have hsound := hopening.after n
  refine ⟨⟨n, ?_, by omega, hsound.rounds_le, hsound.registers.nodup, hsound.registers.root_eq,
    hsound.registers.included⟩, Grammar.repetitionsAdvance⟩
  rw [hresult, s.perform_eq]

end AcsOutline
