import AcsOutline.CommandLine.Disk
import AcsOutline.Proofs.Text.Split
import AcsOutline.Session
import Mathlib.Data.List.Basic

/-!
# Canonical paths

A path is followed part by part from some location, and what it leads to is told by its segments,
the texts between its slashes (`Path.parts_eq`).  From this come the two laws that matter:

* a path that is joined to a directory is followed from where the directory leads
  (`Path.follow_join`), so that only the location of the directory counts;
* a location is written in such a way that its parts are its names (`Location.parts_text`), so that
  it is read back as it is.

The locations that paths are normalised to are canonical: their names are not `.` or `..` and hold
no slash (`Path.isCanonical_normalize`).
-/

namespace AcsOutline

namespace Path

/-- A text that stands for itself in a path. -/
structure IsName (text : String) : Prop where
  not_idle : isIdle text.toList = false
  not_up : text.toList ≠ ['.', '.']
  no_slash : '/' ∉ text.toList

theorem IsName.ne_nil {text : String} (h : IsName text) : text.toList ≠ [] := by
  have hidle := h.not_idle
  rintro hnil
  rw [hnil] at hidle
  cases hidle

theorem IsName.ne_point {text : String} (h : IsName text) : text.toList ≠ ['.'] := by
  have hidle := h.not_idle
  rintro hpoint
  rw [hpoint] at hidle
  cases hidle

theorem IsName.partOf?_eq {text : String} (h : IsName text) :
    partOf? text.toList = some (.name text) := by
  rw [partOf?, if_neg (by simp [h.not_idle]), if_neg h.not_up, String.ofList_toList]

/-- The texts between the slashes of a path. -/
def segments (path : String) : List (List Char) :=
  path.toList.splitOn '/'

/-- The part that a path starts with, besides those of its segments: an empty segment at the start
is that of the root, unless it is all that there is. -/
def lead : List (List Char) → List Part
  | [] => []
  | first :: others =>
    if first = [] ∧ others ≠ [] then [.root] else if first = ['.'] then [.here] else []

/-- The location that a path leads to from another one. -/
def walk (l : Location) (path : String) : Location :=
  (parts path).foldl follow l

theorem segments_ne_nil (path : String) : segments path ≠ [] :=
  List.splitOn_ne_nil '/' path.toList

theorem segments_append_slash (before after : String) :
    segments (before ++ "/" ++ after) = segments before ++ segments after := by
  have hlist : (before ++ "/" ++ after).toList = before.toList ++ '/' :: after.toList := by simp
  rw [segments, hlist, List.splitOn_append_cons_self]
  rfl

theorem segments_of_slash {path : String} {rest : List Char} (h : path.toList = '/' :: rest) :
    segments path = [] :: rest.splitOn '/' := by
  rw [segments, h, Text.splitOn_sep]

/-- A path is its segments with slashes between them. -/
theorem intercalate_segments (path : String) :
    ['/'].intercalate (segments path) = path.toList :=
  List.intercalate_splitOn '/'

/-- Only an absolute path has an empty segment before others. -/
theorem not_rooted_of_segments {path : String} {first : List Char} {others : List (List Char)}
    (hsegments : segments path = first :: others) (h : path.toList.head? ≠ some '/') :
    ¬(first = [] ∧ others ≠ []) := by
  rintro ⟨rfl, hothers⟩
  obtain ⟨next, rest, rfl⟩ := List.exists_cons_of_ne_nil hothers
  have hpath := intercalate_segments path
  rw [hsegments] at hpath
  exact h (by rw [← hpath]; rfl)

/-- **The parts of a path are told by its segments.** -/
theorem parts_eq (path : String) :
    parts path = lead (segments path) ++ (segments path).filterMap partOf? := by
  unfold parts
  fun_cases cut path with
  | case1 rest hpath =>
    obtain ⟨first, others, hrest⟩ := List.exists_cons_of_ne_nil (List.splitOn_ne_nil '/' rest)
    rw [segments, hpath, Text.splitOn_sep, hrest]
    rfl
  | case2 hpath =>
    rw [segments, hpath]
    rfl
  | case3 rest hpath =>
    have hsegments : segments path = ['.'] :: rest.splitOn '/' := by
      rw [segments, hpath, Text.splitOn_cons (by decide), Text.splitOn_sep]
      rfl
    rw [hsegments, Text.splitOn_sep]
    rfl
  | case4 hroot hpoint hhere =>
    -- the path begins neither with a slash nor with a segment that is a point
    have hlead : lead (segments path) = [] := by
      have hrelative : path.toList.head? ≠ some '/' := fun hhead =>
        (List.head?_eq_some_iff.1 hhead).elim hroot
      have hpath := intercalate_segments path
      obtain ⟨first, others, hsegments⟩ := List.exists_cons_of_ne_nil (segments_ne_nil path)
      have hfirst := not_rooted_of_segments hsegments hrelative
      rw [hsegments] at hpath ⊢
      have hpoint : first ≠ ['.'] := by
        rintro rfl
        cases others with
        | nil => exact hpoint hpath.symm
        | cons next rest => exact hhere _ hpath.symm
      rw [lead, if_neg hfirst, if_neg hpoint]
    rw [hlead]
    rfl

/-! ## Following paths -/

theorem walk_eq (l : Location) (path : String) :
    walk l path = ((segments path).filterMap partOf?).foldl follow
      ((lead (segments path)).foldl follow l) := by
  rw [walk, parts_eq, List.foldl_append]

/-- What a path starts with is settled by its first segment and by whether there is another. -/
theorem lead_append {ss ts : List (List Char)} (hss : ss ≠ []) (hts : ts ≠ []) :
    lead (ss ++ ts) = if ss = [[]] then [.root] else lead ss := by
  obtain ⟨s, rest, rfl⟩ := List.exists_cons_of_ne_nil hss
  cases s with
  | nil => cases rest <;> simp [lead, hts]
  | cons c cs => simp [lead]

theorem segments_eq_singleton_nil {path : String} : segments path = [[]] ↔ path = "" := by
  constructor
  · intro h
    have hpath := intercalate_segments path
    rw [h] at hpath
    exact String.toList_eq_nil_iff.1 hpath.symm
  · rintro rfl
    rfl

/-- Every absolute path starts anew at the root. -/
theorem walk_of_absolute {path : String} (h : path.toList.head? = some '/') (l m : Location) :
    walk l path = walk m path := by
  obtain ⟨rest, hpath⟩ := List.head?_eq_some_iff.1 h
  obtain ⟨first, others, hrest⟩ := List.exists_cons_of_ne_nil (List.splitOn_ne_nil '/' rest)
  have hlead : lead (segments path) = [.root] := by
    rw [segments_of_slash hpath, hrest]
    rfl
  rw [walk_eq, walk_eq, hlead]
  rfl

/-- A relative path goes on from where it is taken. -/
theorem walk_of_relative {path : String} (h : path.toList.head? ≠ some '/') (l : Location) :
    walk l path = ((segments path).filterMap partOf?).foldl follow l := by
  have hlead : (lead (segments path)).foldl follow l = l := by
    obtain ⟨first, others, hsegments⟩ := List.exists_cons_of_ne_nil (segments_ne_nil path)
    rw [hsegments, lead, if_neg (not_rooted_of_segments hsegments h)]
    split <;> rfl
  rw [walk_eq, hlead]

theorem walk_append_slash (l : Location) (before : String) {path : String}
    (h : path.toList.head? ≠ some '/') :
    walk l (before ++ "/" ++ path) = walk (walk l (before ++ "/")) path := by
  have hslash : segments (before ++ "/") = segments before ++ [[]] := by
    have happend := segments_append_slash before ""
    rwa [String.append_empty] at happend
  rw [walk_of_relative h, walk_eq, walk_eq, segments_append_slash, hslash,
    lead_append (segments_ne_nil before) (segments_ne_nil path),
    lead_append (segments_ne_nil before) (List.cons_ne_nil [] []), List.filterMap_append,
    List.filterMap_append, List.foldl_append, List.foldl_append]
  rfl

theorem walk_slash (l : Location) {directory : String} (h : directory ≠ "") :
    walk l (directory ++ "/") = walk l directory := by
  have hslash : segments (directory ++ "/") = segments directory ++ [[]] := by
    have happend := segments_append_slash directory ""
    rwa [String.append_empty] at happend
  rw [walk_eq, walk_eq, hslash, lead_append (segments_ne_nil directory) (List.cons_ne_nil [] []),
    if_neg (h ∘ segments_eq_singleton_nil.1), List.filterMap_append, List.foldl_append]
  rfl

/-- **A joined path is followed from where its directory leads.** -/
theorem walk_join (l : Location) (directory path : String) :
    walk l (join directory path) = walk (walk l directory) path := by
  unfold join
  split
  next habsolute => exact walk_of_absolute habsolute _ _
  next hrelative =>
    split
    next hends =>
      rcases hends with rfl | hlast
      · rw [String.empty_append]
        rfl
      · obtain ⟨before, hbefore⟩ := List.getLast?_eq_some_iff.1 hlast
        have hdirectory : directory = String.ofList before ++ "/" := by
          apply String.toList_injective
          rw [hbefore]
          simp
        rw [hdirectory, walk_append_slash l _ hrelative]
    next hends =>
      rw [walk_append_slash l _ hrelative, walk_slash l (not_or.1 hends).1]

theorem normalize_join (directory path : String) :
    normalize (join directory path) = walk (normalize directory) path :=
  walk_join ⟨false, []⟩ directory path

end Path

/-! ## Canonical locations -/

namespace Location

/-- A location whose names stand for themselves. -/
def IsCanonical (l : Location) : Prop :=
  ∀ name ∈ l.names, Path.IsName name

/-- What a location is written as, in segments. -/
theorem segments_text {l : Location} (h : l.IsCanonical) (hne : l.names ≠ []) :
    Path.segments l.text =
      (if l.isAbsolute then [[]] else []) ++ l.names.map String.toList := by
  have hnames : (['/'].intercalate (l.names.map String.toList)).splitOn '/' =
      l.names.map String.toList := by
    refine List.splitOn_intercalate '/' (fun segment hsegment => ?_) (by simpa using hne)
    obtain ⟨name, hname, rfl⟩ := List.mem_map.1 hsegment
    exact (h name hname).no_slash
  unfold Path.segments text
  rw [String.toList_append, String.toList_intercalate]
  cases l.isAbsolute with
  | false => exact hnames
  | true =>
    rw [if_pos rfl, if_pos rfl]
    exact (Text.splitOn_sep _).trans (congrArg ([] :: ·) hnames)

/-- **The parts of a location as it is written are its names**, behind the root where it starts
there. -/
theorem parts_text {l : Location} (h : l.IsCanonical) :
    Path.parts l.text = (if l.isAbsolute then [.root] else []) ++ l.names.map .name := by
  obtain ⟨isAbsolute, names⟩ := l
  cases names with
  | nil => cases isAbsolute <;> rfl
  | cons name names =>
    have hparts : ((name :: names).map String.toList).filterMap Path.partOf? =
        (name :: names).map .name := by
      rw [List.filterMap_map, ← List.filterMap_eq_map]
      exact List.filterMap_congr fun n hn => (h n hn).partOf?_eq
    have hname := h name List.mem_cons_self
    rw [Path.parts_eq, segments_text h (List.cons_ne_nil _ _)]
    cases isAbsolute with
    | false =>
      have hlead : Path.lead ((name :: names).map String.toList) = [] := by
        rw [List.map_cons, Path.lead, if_neg fun e => hname.ne_nil e.1, if_neg hname.ne_point]
      exact congr (congrArg _ hlead) hparts
    | true => exact congrArg (Path.Part.root :: ·) hparts

theorem foldl_follow_names (l : Location) (names : List String) :
    (names.map Path.Part.name).foldl Path.follow l = { l with names := l.names ++ names } := by
  induction names generalizing l with
  | nil => simp
  | cons name names ih =>
    rw [List.map_cons, List.foldl_cons, ih]
    simp [Path.follow]

/-- **A canonical location is read back as it is written.** -/
theorem normalize_text {l : Location} (h : l.IsCanonical) : Path.normalize l.text = l := by
  obtain ⟨isAbsolute, names⟩ := l
  rw [Path.normalize, parts_text h]
  cases isAbsolute <;> exact foldl_follow_names _ names

end Location

namespace Path

/-- A part that has a segment of its own leads one level up or to a name that stands for itself. -/
theorem eq_up_or_isName {path : String} {part : Part}
    (h : part ∈ (segments path).filterMap partOf?) :
    part = .up ∨ ∃ name, part = .name name ∧ IsName name := by
  obtain ⟨segment, hsegment, hpart⟩ := List.mem_filterMap.1 h
  unfold partOf? at hpart
  split at hpart
  · cases hpart
  next hidle =>
    split at hpart
    · exact Or.inl (Option.some.inj hpart).symm
    next hup =>
      refine Or.inr ⟨_, (Option.some.inj hpart).symm, ?_, ?_, ?_⟩
      · rw [String.toList_ofList]
        exact Bool.eq_false_iff.2 hidle
      · rwa [String.toList_ofList]
      · rw [String.toList_ofList]
        exact fun hslash => (Text.mem_of_mem_splitOn hsegment hslash).2 rfl

theorem isCanonical_follow {l : Location} (hl : l.IsCanonical) {part : Part}
    (hpart : ∀ name, part = .name name → IsName name) : (follow l part).IsCanonical := by
  cases part with
  | root => exact fun _ h => absurd h List.not_mem_nil
  | here => exact hl
  | up => exact fun name h => hl name (List.dropLast_subset _ h)
  | name text =>
    intro name h
    rcases List.mem_append.1 h with h | h
    · exact hl name h
    · obtain rfl := List.mem_singleton.1 h
      exact hpart _ rfl

theorem isName_of_mem_parts {path name : String} (h : Part.name name ∈ parts path) :
    IsName name := by
  rw [parts_eq] at h
  rcases List.mem_append.1 h with h | h
  · have hlead : ∀ ss, Part.name name ∉ lead ss := by
      intro ss
      unfold lead
      split
      · simp
      · split <;> [simp; split <;> simp]
    exact absurd h (hlead _)
  · rcases eq_up_or_isName h with h | ⟨name', h, hname⟩
    · cases h
    · cases h
      exact hname

/-- What is reached from a canonical location is canonical. -/
theorem isCanonical_walk {l : Location} (hl : l.IsCanonical) (path : String) :
    (walk l path).IsCanonical :=
  List.foldlRecOn (motive := Location.IsCanonical) (parts path) follow hl
    fun _ hm _ hpart => isCanonical_follow hm fun _ hname => isName_of_mem_parts (hname ▸ hpart)

theorem isCanonical_normalize (path : String) : (normalize path).IsCanonical :=
  isCanonical_walk (fun _ h => absurd h List.not_mem_nil) path

/-- A location is the one place to which its own spelling leads, from wherever it is taken, if it
starts at the root. -/
theorem walk_text {l : Location} (h : l.IsCanonical) (habsolute : l.isAbsolute = true)
    (m : Location) : walk m l.text = l := by
  obtain ⟨isAbsolute, names⟩ := l
  obtain rfl : isAbsolute = true := habsolute
  rw [walk, Location.parts_text h]
  exact Location.foldl_follow_names _ names

theorem isAbsolute_walk {l : Location} (hl : l.isAbsolute = true) (path : String) :
    (walk l path).isAbsolute = true := by
  refine List.foldlRecOn (motive := fun m => m.isAbsolute = true) (parts path) follow hl ?_
  intro m hm part _
  cases part with
  | root => rfl
  | here | up | name => exact hm

theorem join_ne_empty {directory : String} (h : directory ≠ "") (path : String) :
    join directory path ≠ "" := by
  unfold join
  split
  next habsolute =>
    rintro rfl
    cases habsolute
  · split <;> simp [h]

end Path

/-! ## Sources -/

namespace CommandLine.Disk

variable (here : List String)

/-- A path on a disk is followed from the directory that relative paths start from. -/
theorem resolve_eq {path : String} (h : path ≠ "") :
    resolve here path = Path.walk (Path.normalize (Location.text ⟨true, here⟩)) path := by
  rw [resolve, if_neg h, Path.normalize_join]

theorem isAbsolute_here : (Path.normalize (Location.text ⟨true, here⟩)).isAbsolute = true := by
  have hroot : (Location.text ⟨true, here⟩).toList.head? = some '/' := by
    simp [Location.text]
  have hwalk := Path.walk_of_absolute hroot ⟨false, []⟩ ⟨true, []⟩
  rw [Path.normalize, ← Path.walk, hwalk]
  exact Path.isAbsolute_walk rfl _

/-- **A path on a disk is found in a directory as it is written and as it was resolved.** -/
theorem resolve_join_resolve (directory path : String) :
    resolve here (Path.join (resolve here directory).text path) =
      resolve here (Path.join directory path) := by
  by_cases hempty : directory = ""
  · rw [hempty]
    rfl
  · have hresolve := resolve_eq here hempty
    have habsolute : (resolve here directory).isAbsolute = true := by
      rw [hresolve]
      exact Path.isAbsolute_walk (isAbsolute_here here) directory
    have hcanonical : (resolve here directory).IsCanonical := by
      rw [hresolve]
      exact Path.isCanonical_walk (Path.isCanonical_normalize _) directory
    have htext : (resolve here directory).text ≠ "" := by
      simp [Location.text, habsolute]
    rw [resolve_eq here (Path.join_ne_empty htext path),
      resolve_eq here (Path.join_ne_empty hempty path), Path.walk_join, Path.walk_join,
      Path.walk_text hcanonical habsolute, hresolve]

end CommandLine.Disk

namespace SourceFiles

/-- Among files in memory the last one counts whose path is normalised to the location. -/
theorem load_ofList (files : List (String × Finding)) (l : Location) :
    (ofList files).load l =
      ((files.reverse.find? fun file => Path.normalize file.1 = l).map Prod.snd).getD
        Finding.missing := by
  have hlookup : ∀ fs : List (String × Finding),
      (fs.map fun file => (Path.normalize file.1, file.2)).lookup l =
        (fs.find? fun file => Path.normalize file.1 = l).map Prod.snd := by
    intro fs
    induction fs with
    | nil => rfl
    | cons file fs ih =>
      by_cases h : Path.normalize file.1 = l
      · simp [h]
      · rw [List.map_cons, List.lookup_cons, beq_false_of_ne (Ne.symm h), ih,
          List.find?_cons_of_neg (by simpa using h)]
  show ((files.map fun file => (Path.normalize file.1, file.2)).reverse.lookup l).getD
    Finding.missing = _
  rw [← List.map_reverse, hlookup]

/-- What an include names is the same file whether its directory is taken as it is written or as
it was resolved. -/
def FindsIncludes (sources : SourceFiles) : Prop :=
  ∀ (file : OpenFile) (directory path : String),
    sources.resolve (Run.includeTarget
        { file with directory := some (sources.resolve directory).text } path) =
      sources.resolve (Run.includeTarget { file with directory := some directory } path)

end SourceFiles

namespace Path

/-- **Normalising is canonical and goes along with joining.**  A normalised path has no `.` and no
`..`, and to normalise it again changes nothing.  A path that is joined to a directory, relative or
absolute, is normalised alike whether the directory was normalised before or not; so an include
names the same file from the directory as it is written and as it was resolved, among files in
memory and on a disk.  What a path finds among files in memory is the last file whose path is
normalised like it. -/
theorem normalize_canonical (path directory : String) (files : List (String × Finding))
    (disk : CommandLine.Disk) :
    Part.here ∉ parts (normalize path).text ∧
      Part.up ∉ parts (normalize path).text ∧
      normalize (normalize path).text = normalize path ∧
      normalize (join (normalize directory).text path) = normalize (join directory path) ∧
      (SourceFiles.ofList files).FindsIncludes ∧
      disk.sources.FindsIncludes ∧
      (SourceFiles.ofList files).load ((SourceFiles.ofList files).resolve path) =
        ((files.reverse.find? fun file => normalize file.1 = normalize path).map
          Prod.snd).getD Finding.missing := by
  have hcanonical := isCanonical_normalize path
  have hjoin : ∀ directory path,
      normalize (join (normalize directory).text path) = normalize (join directory path) := by
    intro directory path
    rw [normalize_join, normalize_join, Location.normalize_text (isCanonical_normalize directory)]
  refine ⟨?_, ?_, Location.normalize_text hcanonical, hjoin directory path, ?_, ?_,
    SourceFiles.load_ofList files _⟩
  · rw [Location.parts_text hcanonical]
    split <;> simp
  · rw [Location.parts_text hcanonical]
    split <;> simp
  · exact fun _ directory path => hjoin directory _
  · exact fun _ directory path => CommandLine.Disk.resolve_join_resolve disk.here directory _

/-- A `..` with nothing before it to take away leads nowhere. -/
example : normalize "../a/./b//../c/" = ⟨false, ["a", "c"]⟩ := by
  decide +kernel

end Path

end AcsOutline
