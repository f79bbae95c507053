import AcsOutline.CommandLine.Disk

/-!
# Writing a file

A file that was written reads as what was written, and nothing else on the disk has changed
(`Disk.replaces_write`).  The path still leads to the same place: what stands there was no directory
before, so no path goes through it.
-/

namespace AcsOutline.CommandLine

namespace Disk

variable {d d' : Disk} {names : List String} {path : String} {content : ByteArray}

/-- What is put at a place stands there, and what stands elsewhere stays. -/
theorem node?_put (d : Disk) (hnames : names ≠ []) (node : DiskNode) (other : List String) :
    (d.put names node).node? other = if other = names then some node else d.node? other := by
  by_cases hother : other = names
  · simp [node?, put, hother, hnames]
  · have hlookup : (d.nodes.filter fun c => c.1 ≠ names).lookup other = d.nodes.lookup other := by
      induction d.nodes with
      | nil => rfl
      | cons c rest ih =>
        obtain ⟨ns, there⟩ := c
        by_cases hns : ns = names
        · rw [List.filter_cons_of_neg (by simpa using hns), ih, List.lookup_cons,
            beq_false_of_ne (hns ▸ hother)]
        · rw [List.filter_cons_of_pos (by simpa using hns), List.lookup_cons, List.lookup_cons, ih]
    rw [if_neg hother, node?, node?, put, List.lookup_cons, beq_false_of_ne hother]
    exact congrArg (ite (other = []) _) hlookup

/-- A file that stands where no directory stood is on the way to nothing that was there. -/
theorem checkDirectory_put (hfile : d.node? names ≠ some .directory) {before : List String}
    (h : d.checkDirectory before = .ok ()) :
    (d.put names (.file content)).checkDirectory before = .ok () := by
  have hnames : names ≠ [] := fun e => hfile (by rw [node?, if_pos e])
  have hbefore : before ≠ names := by
    rintro rfl
    unfold checkDirectory at h
    split at h
    next hdirectory => exact hfile hdirectory
    · cases h
    · cases h
  rwa [checkDirectory, node?_put d hnames, if_neg hbefore]

theorem enter_put (hfile : d.node? names ≠ some .directory) {before after : List String}
    {part : Path.Part} (h : d.enter before part = .ok after) :
    (d.put names (.file content)).enter before part = .ok after := by
  unfold enter at h ⊢
  cases hcheck : d.checkDirectory before with
  | error fault =>
    rw [hcheck] at h
    cases h
  | ok =>
    rw [hcheck] at h
    rw [checkDirectory_put hfile hcheck]
    exact h

/-- A path that leads somewhere leads there still. -/
theorem locate_put (hfile : d.node? names ≠ some .directory) {found : List String}
    (h : d.locate path = .ok found) :
    (d.put names (.file content)).locate path = .ok found := by
  have hrun : ∀ (parts : List Path.Part) (before : List String),
      parts.foldlM d.enter before = .ok found →
        parts.foldlM (d.put names (.file content)).enter before = .ok found := by
    intro parts
    induction parts with
    | nil => exact fun _ h => h
    | cons part parts ih =>
      intro before h
      rw [List.foldlM_cons] at h ⊢
      cases hpart : d.enter before part with
      | error fault =>
        rw [hpart] at h
        cases h
      | ok next =>
        rw [hpart] at h
        rw [enter_put hfile hpart]
        exact ih next h
  unfold locate at h ⊢
  split
  next hnul => rwa [if_pos hnul] at h
  next hnul =>
    rw [if_neg hnul] at h
    split
    next hempty => rwa [if_pos hempty] at h
    next hempty =>
      rw [if_neg hempty] at h
      exact hrun _ _ h

/-- A path that may lead to a file does not end in a point. -/
theorem endsInPoint_of_wantsDirectory (h : wantsDirectory path = false) :
    endsInPoint path = false := by
  unfold wantsDirectory at h
  unfold endsInPoint
  rw [← List.head?_reverse] at h
  cases hsegments : (Path.cut path).2.reverse with
  | nil => rfl
  | cons segment rest =>
    rw [hsegments] at h
    rw [List.takeWhile_cons_of_neg (by simpa using h)]
    rfl

/-- A file is written to the place that a path leads to, unless a directory stands there. -/
theorem write_of_locate (hlocate : d.locate path = .ok names)
    (hwants : wantsDirectory path = false) :
    d.write path content =
      match d.node? names with
      | some .directory => .error .isDirectory
      | _ => .ok (d.put names (.file content)) := by
  unfold write
  rw [hlocate, hwants, endsInPoint_of_wantsDirectory hwants]
  rfl

/-- No file is written to a path that asks for a directory. -/
theorem write_ne_ok (hwants : wantsDirectory path = true) : d.write path content ≠ .ok d' := by
  unfold write
  rw [hwants]
  cases d.locate path with
  | error fault => exact nofun
  | ok names =>
    cases endsInPoint path with
    | false => exact nofun
    | true =>
      change (d.checkDirectory names >>= fun _ => Except.error DiskFault.isDirectory) ≠ .ok d'
      cases d.checkDirectory names <;> exact nofun

/-- **When a file can be written.**  The path has to lead to a place where no directory stands, and
must not ask for one. -/
theorem write_eq_ok_iff :
    d.write path content = .ok d' ↔
      ∃ names, d.locate path = .ok names ∧ wantsDirectory path = false ∧
        d.node? names ≠ some .directory ∧ d' = d.put names (.file content) := by
  constructor
  · intro h
    cases hwants : wantsDirectory path with
    | true => exact absurd h (write_ne_ok hwants)
    | false =>
      cases hlocate : d.locate path with
      | error fault =>
        rw [write, hlocate] at h
        cases h
      | ok names =>
        rw [write_of_locate hlocate hwants] at h
        split at h
        · cases h
        next hfile => exact ⟨names, rfl, rfl, hfile, (Except.ok.inj h).symm⟩
  · rintro ⟨names, hlocate, hwants, hfile, rfl⟩
    rw [write_of_locate hlocate hwants]
    split
    next hdirectory => exact absurd hdirectory hfile
    · rfl

/-- One disk is another with a content written to the file at a path. -/
structure Replaces (d' d : Disk) (path : String) (content : ByteArray) : Prop where
  here_eq : d'.here = d.here
  /-- The file reads as what was written. -/
  readBytes_eq : d'.readBytes path = .ok content
  /-- What stands at any other place is as before. -/
  node?_eq : ∀ names, d.locate path ≠ .ok names → d'.node? names = d.node? names

/-- **Writing changes one file.** -/
theorem replaces_write (h : d.write path content = .ok d') : d'.Replaces d path content := by
  obtain ⟨names, hlocate, hwants, hfile, rfl⟩ := write_eq_ok_iff.1 h
  have hnames : names ≠ [] := fun e => hfile (by rw [node?, if_pos e])
  refine ⟨rfl, ?_, fun other hother => ?_⟩
  · have hread : (d.put names (.file content)).readNames names = .ok content := by
      rw [readNames, node?_put d hnames, if_pos rfl]
    rw [readBytes, locate_put hfile hlocate, hwants]
    exact hread
  · have hne : other ≠ names := fun e => hother (e ▸ hlocate)
    rw [node?_put d hnames, if_neg hne]

end Disk

end AcsOutline.CommandLine
