import AcsOutline.CommandLine.Program
import AcsOutline.Proofs.CommandLine.Disk
import AcsOutline.Proofs.Lowering.Exports

/-!
# Runs of the program

A run reads everything before it writes anything.  `World.findings` is what it finds out: the
dialect of the settings and the document of the input, or what keeps it from them.  Up to then the
world is as it was; then there is one write, or one print (`World.Ends`, `World.ends_run`).

What is shown is the outline, lowered or not, and the sections asked for.  These are the same with
and without lowering: bindings are those of the document, and a lowered tree has the task notes of
the document in the same order (`Tree.allNotes_lower`).
-/

namespace AcsOutline

namespace Tree

mutual

/-- **Lowering keeps the task notes.** -/
theorem allNotes_lower (d : Dialect) (t : Tree) : (t.lower d).allNotes = t.allNotes := by
  obtain ⟨notes, entries, children⟩ := t
  rw [lower, allNotes, allNotes, allNotesIn_lowerAll]

theorem allNotesIn_lowerAll (d : Dialect) (children : List (NamespaceKey × Tree)) :
    allNotesIn (lowerAll d children) = allNotesIn children := by
  cases children with
  | nil => rfl
  | cons c rest => rw [lowerAll, allNotesIn, allNotesIn, allNotes_lower, allNotesIn_lowerAll]

end

end Tree

namespace CommandLine

/-! ## What is shown -/

/-- The sections of a document that are asked for, as they stand behind the outline. -/
def sections (tasks bindings : Bool) (document : Document) : String :=
  (if tasks then noteSection document.tree.allNotes else "") ++
    (if bindings then bindingSection document.tree.bindings else "")

/-- **Lowering changes the outline only.** -/
theorem render_eq (args : Arguments) (dialect : Dialect) (document : Document) :
    render args dialect document =
      (if args.lower then document.tree.lower dialect else document.tree).outline ++
        sections args.tasks args.bindings document := by
  have hnotes : (if args.lower then document.tree.lower dialect else document.tree).allNotes =
      document.tree.allNotes := by
    split
    · exact Tree.allNotes_lower dialect document.tree
    · rfl
  rw [render, sections, hnotes, String.append_assoc]

/-! ## What is only read -/

section

variable {α β : Type}

/-- What an action does after another one. -/
theorem run_bind (x : ExceptT Trouble (StateM World) α) (f : α → ExceptT Trouble (StateM World) β)
    (w : World) :
    (x >>= f).run w =
      match x.run w with
      | (.error trouble, w') => (.error trouble, w')
      | (.ok a, w') => (f a).run w' := by
  change (match x.run w with | (result, w') => ExceptT.bindCont f result w') = _
  obtain ⟨_ | a, w'⟩ := x.run w <;> rfl

theorem run_lift_bind (y : StateM World α) (f : α → ExceptT Trouble (StateM World) β) (w : World) :
    ((liftM y : ExceptT Trouble (StateM World) α) >>= f).run w = (f (y.run w).1).run (y.run w).2 :=
  rfl

/-- An action that leaves the world as it is. -/
def IsReading (x : ExceptT Trouble (StateM World) α) : Prop :=
  ∀ w, (x.run w).2 = w

namespace IsReading

variable {x : ExceptT Trouble (StateM World) α}

theorem pure (a : α) : IsReading (Pure.pure a) :=
  fun _ => rfl

theorem throw (trouble : Trouble) : IsReading (α := α) (MonadExcept.throw trouble) :=
  fun _ => rfl

theorem bind {f : α → ExceptT Trouble (StateM World) β} (hx : IsReading x)
    (hf : ∀ a, IsReading (f a)) : IsReading (x >>= f) := by
  intro w
  rw [run_bind]
  have hw := hx w
  generalize x.run w = r at hw
  obtain ⟨_ | a, w'⟩ := r
  · exact hw
  · obtain rfl : w' = w := hw
    exact hf a w'

theorem lift {y : StateM World α} (hy : ∀ w, (y.run w).2 = w) :
    IsReading (liftM y : ExceptT Trouble (StateM World) α) :=
  hy

end IsReading

end

variable (configHome : Option String) (decodeSettings : String → Except String Settings)

theorem isReading_isPresent (path : String) :
    IsReading (liftM ((World.host configHome decodeSettings).isPresent path)) :=
  .lift fun _ => rfl

theorem isReading_readSettings (path : String) :
    IsReading (readSettings (World.host configHome decodeSettings) path) := by
  refine .bind (.lift fun _ => rfl) fun answer => ?_
  cases answer with
  | error reason => exact .throw _
  | ok text =>
    dsimp only
    split
    · exact .pure _
    · exact .throw _

theorem isReading_findPresent (paths : List String) :
    IsReading (findPresent (World.host configHome decodeSettings) paths) := by
  induction paths with
  | nil => exact .pure none
  | cons path paths ih =>
    refine .bind (isReading_isPresent configHome decodeSettings path) fun isThere => ?_
    cases isThere with
    | false => exact ih
    | true => exact .pure _

/-- **Settings are only read.** -/
theorem isReading_loadSettings (explicit : Option String) :
    IsReading (loadSettings (World.host configHome decodeSettings) explicit) := by
  unfold loadSettings
  cases explicit with
  | none =>
    refine .bind (isReading_findPresent configHome decodeSettings _) fun found => ?_
    cases found with
    | none => exact .pure _
    | some path => exact isReading_readSettings configHome decodeSettings path
  | some path =>
    refine .bind (isReading_isPresent configHome decodeSettings path) fun isThere => ?_
    cases isThere with
    | false => exact .throw _
    | true => exact isReading_readSettings configHome decodeSettings path

/-! ## How a run ends -/

namespace World

/-- What a run finds out before it shows anything: the dialect of the settings and the document of
the input, or what keeps it from them. -/
def findings (w : World) (config : Option String) (input : String) :
    Except Trouble (Dialect × Document) := do
  let settings ← ((loadSettings (host configHome decodeSettings) config).run w).1
  match Document.ofFile settings.reading w.disk.sources input with
  | .error failure => throw (.source failure)
  | .ok document => return (settings.dialect, document)

/-- What a run shows of its findings. -/
def shown (args : Arguments) (dialect : Dialect) (document : Document) : String :=
  (if args.lower then document.tree.lower dialect else document.tree).outline ++
    sections args.tasks args.bindings document

/-- How a run from a world ends, and in which world. -/
inductive Ends (w : World) (args : Arguments) (findings : Except Trouble (Dialect × Document)) :
    Except Trouble Unit × World → Prop
  /-- Something could not be read, and nothing was written. -/
  | unread {trouble : Trouble} : findings = .error trouble →
      Ends w args findings (.error trouble, w)
  /-- The output could not be written. -/
  | unwritten {dialect : Dialect} {document : Document} {path : String} {fault : DiskFault} :
      findings = .ok (dialect, document) → args.output = some path →
      w.disk.write path (shown args dialect document).toUTF8 = .error fault →
      Ends w args findings (.error (.io fault.message), w)
  /-- The output was written, and no other file. -/
  | written {dialect : Dialect} {document : Document} {path : String} {disk : Disk} :
      findings = .ok (dialect, document) → args.output = some path →
      disk.Replaces w.disk path (shown args dialect document).toUTF8 →
      Ends w args findings (.ok (), { w with disk })
  /-- The output was printed, and no file was written. -/
  | printed {dialect : Dialect} {document : Document} :
      findings = .ok (dialect, document) → args.output = none →
      Ends w args findings (.ok (), { w with printed := w.printed ++ shown args dialect document })

theorem run_write (w : World) (path text : String) :
    ((host configHome decodeSettings).write path text).run w =
      match w.disk.write path text.toUTF8 with
      | .error fault => (some fault.message, w)
      | .ok disk => (none, { w with disk }) := by
  change (match w.disk.write path text.toUTF8 with
    | .error fault => Pure.pure (some fault.message)
    | .ok disk => _ : StateM World (Option String)).run w = _
  cases w.disk.write path text.toUTF8 <;> rfl

/-- A run is what it finds out, and then one write or one print. -/
theorem run_eq (w : World) (args : Arguments) :
    (run (host configHome decodeSettings) args).run w =
      match w.findings configHome decodeSettings args.config args.input with
      | .error trouble => (.error trouble, w)
      | .ok (dialect, document) =>
        match args.output with
        | none => (.ok (), { w with printed := w.printed ++ shown args dialect document })
        | some path =>
          match w.disk.write path (shown args dialect document).toUTF8 with
          | .error fault => (.error (.io fault.message), w)
          | .ok disk => (.ok (), { w with disk }) := by
  have hsettings : (loadSettings (host configHome decodeSettings) args.config).run w =
      (((loadSettings (host configHome decodeSettings) args.config).run w).1, w) :=
    Prod.ext rfl (isReading_loadSettings configHome decodeSettings args.config w)
  rw [run, run_bind, hsettings, findings]
  generalize ((loadSettings (host configHome decodeSettings) args.config).run w).1 = result
  cases result with
  | error trouble => rfl
  | ok settings =>
    have hread : StateT.run
        ((host configHome decodeSettings).readDocument settings.reading args.input) w =
        (Document.ofFile settings.reading w.disk.sources args.input, w) := rfl
    dsimp only
    rw [run_lift_bind, hread]
    change _ = match (match Document.ofFile settings.reading w.disk.sources args.input with
      | .error failure => Except.error (Trouble.source failure)
      | .ok document => Except.ok (settings.dialect, document)) with
      | .error trouble => _
      | .ok (dialect, document) => _
    cases Document.ofFile settings.reading w.disk.sources args.input with
    | error failure => rfl
    | ok document =>
      dsimp only
      rw [render_eq]
      cases args.output with
      | none => rfl
      | some path =>
        dsimp only
        rw [run_lift_bind, run_write, shown]
        cases w.disk.write path _ <;> rfl

/-- **A run does all or nothing**, however settings are written.  Its findings do not depend on
whether the tree is lowered, and so the sections that it shows behind the outline do not either.  If
something cannot be read, the world stays as it is; otherwise the outline with the sections is the
content of the output file, and nothing else has changed, or it is printed and all files stay; or
that last write fails. -/
theorem ends_run (w : World) (args : Arguments) :
    let found := w.findings configHome decodeSettings args.config args.input
    ∀ lower,
      w.Ends { args with lower } found
        ((run (host configHome decodeSettings) { args with lower }).run w) := by
  intro found lower
  obtain ⟨input, -, tasks, bindings, output, config, logLevel⟩ := args
  rw [run_eq]
  cases hfound : found with
  | error trouble =>
    rw [show w.findings configHome decodeSettings config input = _ from hfound]
    exact .unread rfl
  | ok findings =>
    obtain ⟨dialect, document⟩ := findings
    rw [show w.findings configHome decodeSettings config input = _ from hfound]
    cases output with
    | none => exact .printed rfl rfl
    | some path =>
      dsimp only
      split
      next hwrite => exact .unwritten rfl rfl hwrite
      next hwrite => exact .written rfl rfl (Disk.replaces_write hwrite)

end World

end CommandLine

end AcsOutline
