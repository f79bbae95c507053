import AcsOutline.Proofs.Printing.Rounds
import AcsOutline.Proofs.Scanner.Signs
import AcsOutline.Proofs.Tree.Edits

/-!
# Dotted and nested namespaces

A head with a dotted name opens one namespace for each of its names, in one round; heads that stand
one inside the other open one in each round.  Both leave the same tree under construction
(`Run.dottedHead_eq_nestedHeads`).  A closing brace leaves one of these namespaces, whichever way
they were opened.

What is said of a head are the kinds of its tokens and its names (`Sign`), so that the words may
be written in any case and with any blanks and line breaks between the tokens.
-/

namespace AcsOutline

/-! ## Heads -/

/-- The keys of namespaces with given names, all strict or none. -/
def NamespaceKey.ofNames (isStrict : Bool) (names : List String) : List NamespaceKey :=
  names.map fun name => ⟨isStrict, some name⟩

namespace Sign

/-- Names with points between them, and a brace. -/
def dotted : List String → List Sign
  | [] => [mark .lbrace]
  | [n] => [name n, mark .lbrace]
  | n :: names => name n :: mark .dot :: dotted names

/-- The head `strict? namespace n.m. … {`. -/
def dottedHead (isStrict : Bool) (names : List String) : List Sign :=
  (if isStrict then [mark (.keyword .strictWord)] else []) ++
    mark (.keyword .namespaceWord) :: dotted names

/-- The heads `strict? namespace n { strict? namespace m { …`. -/
def nestedHeads (isStrict : Bool) (names : List String) : List Sign :=
  names.flatMap fun n => dottedHead isStrict [n]

/-- A number of closing braces. -/
def braces (n : Nat) : List Sign :=
  List.replicate n (mark .rbrace)

end Sign

namespace Grammar

open Reading

variable {isStrict : Bool} {names : List String} {s : Scanner}

theorem namespaceRound_again (hname : s.next.token.kind = .symbol)
    (hpoint : s.next.next.token.kind = .dot) (keys : List NamespaceKey) :
    namespaceRound isStrict keys s =
      .ok (.again (⟨isStrict, some s.next.token.text⟩ :: keys)) s.next.next := by
  rw [namespaceRound, next_bind, if_pos hname, next_bind, if_pos hpoint]
  rfl

theorem namespaceRound_done (hname : s.next.token.kind = .symbol)
    (hbrace : s.next.next.token.kind = .lbrace) (keys : List NamespaceKey) :
    namespaceRound isStrict keys s =
      .ok (.done ⟨(⟨isStrict, some s.next.token.text⟩ :: keys).reverse, none⟩) s.next.next := by
  have hpoint : s.next.next.token.kind ≠ .dot := by rw [hbrace]; decide
  rw [namespaceRound, next_bind, if_pos hname, next_bind, if_neg hpoint, if_pos hbrace]
  rfl

/-- The names of a head are read one by one, each with the point or brace behind it. -/
theorem loop_namespaceRound_eq (hne : names ≠ []) (h : s.Announces (Sign.dotted names))
    (keys : List NamespaceKey) :
    loop (namespaceRound isStrict) (namespaceRound_progresses isStrict) keys s =
      .ok ⟨keys.reverse ++ NamespaceKey.ofNames isStrict names, none⟩
        (s.ahead (Sign.dotted names).length) := by
  induction names generalizing s keys with
  | nil => exact absurd rfl hne
  | cons n names ih =>
    cases names with
    | nil =>
      obtain ⟨⟨hname, htext⟩, -, ⟨hbrace, -⟩, -, -⟩ := h
      rw [loop_eq, namespaceRound_done hname hbrace, List.reverse_cons, htext n rfl]
      rfl
    | cons m names =>
      obtain ⟨⟨hname, htext⟩, -, ⟨hpoint, -⟩, -, hrest⟩ := h
      rw [loop_eq, namespaceRound_again hname hpoint]
      dsimp only
      rw [ih (List.cons_ne_nil _ _) hrest, List.reverse_cons, List.append_assoc, htext n rfl]
      rfl

theorem namespaceNames_eq (hne : names ≠ []) (h : s.Announces (Sign.dotted names)) :
    namespaceNames isStrict s =
      .ok ⟨NamespaceKey.ofNames isStrict names, none⟩ (s.ahead (Sign.dotted names).length) := by
  have hname : s.next.token.kind = .symbol := by
    rcases names with _ | ⟨n, _ | ⟨m, names⟩⟩
    · exact absurd rfl hne
    · exact h.1.1
    · exact h.1.1
  rw [namespaceNames, peek_bind, if_neg (by rw [hname]; decide), loop_namespaceRound_eq hne h]
  rfl

/-- **A head with a dotted name opens the namespaces of its names.** -/
theorem namespaceHead_eq_some (hne : names ≠ [])
    (h : s.Announces (Sign.dottedHead isStrict names)) :
    namespaceHead s.next = .ok (some ⟨NamespaceKey.ofNames isStrict names, none⟩)
      (s.ahead (Sign.dottedHead isStrict names).length) := by
  rw [namespaceHead_eq]
  cases isStrict with
  | false =>
    have hword : s.next.token.kind = .keyword .namespaceWord := h.1.1
    rw [if_neg (by rw [hword]; decide), if_pos hword]
    exact map_of_ok (namespaceNames_eq hne h.2.2) some
  | true =>
    have hstrict : s.next.token.kind = .keyword .strictWord := h.1.1
    have hword : s.next.next.token.kind = .keyword .namespaceWord := h.2.2.1.1
    rw [if_pos hstrict]
    show (check s.next.next.token _ _ >>= fun _ => some <$> namespaceNames true) s.next.next = _
    rw [check_of_kind hword (by decide), pure_bind]
    exact map_of_ok (namespaceNames_eq hne h.2.2.2.2) some

end Grammar

variable {s : Scanner} {isStrict : Bool} {names : List String}

theorem recognize_dottedHead (hne : names ≠ [])
    (h : s.Announces (Sign.dottedHead isStrict names)) (b : Builder) :
    recognize ⟨s.next, b⟩ =
      .ok none ⟨s.ahead (Sign.dottedHead isStrict names).length,
        (NamespaceKey.ofNames isStrict names).foldl Builder.enter b⟩ := by
  have hform : s.next.form? = some .namespaceOpen := by
    cases isStrict with
    | false => rw [Scanner.form?, show s.next.token.kind = .keyword .namespaceWord from h.1.1]
    | true => rw [Scanner.form?, show s.next.token.kind = .keyword .strictWord from h.1.1]
  refine recognize_of_matched hform ?_
  show Form.openNamespaces ⟨s.next, b⟩ = _
  rw [Form.openNamespaces, Grammar.namespaceHead_eq_some hne h]

theorem recognize_rbrace (h : s.next.token.kind = .rbrace) {b left : Builder}
    (hleave : b.leave? = some left) : recognize ⟨s.next, b⟩ = .ok none ⟨s.next, left⟩ := by
  have hform : s.next.form? = some .namespaceClose := by rw [Scanner.form?, h]
  refine recognize_of_matched hform ?_
  show Form.closeNamespace ⟨s.next, b⟩ = _
  rw [Form.closeNamespace, if_pos h, hleave]

/-! ## Opening and leaving -/

namespace Builder

open AcsOutline.Tree (update)

/-- Leaves a number of namespaces. -/
def leaves? : Nat → Builder → Option Builder
  | 0, b => some b
  | n + 1, b => b.leave?.bind (leaves? n)

theorem path_foldl_enter (keys : List NamespaceKey) (b : Builder) :
    (keys.foldl enter b).path = b.path ++ keys := by
  have hpath := path_foldl b (keys.map .enter)
  rw [Edit.foldl_walk_enter, after, List.foldl_map] at hpath
  exact hpath

/-- The level that is open behind a path is the one that was there. -/
theorem here_foldl_enter (keys : List NamespaceKey) (b : Builder) :
    (keys.foldl enter b).here = b.here.level keys := by
  induction keys generalizing b with
  | nil => rfl
  | cons key keys ih => rw [List.foldl_cons, ih, Tree.level_cons]; rfl

theorem leaves?_succ (n : Nat) (b : Builder) : b.leaves? (n + 1) = (b.leaves? n).bind leave? := by
  induction n generalizing b with
  | zero =>
    show b.leave?.bind some = b.leave?
    cases b.leave? <;> rfl
  | succ n ih =>
    show b.leave?.bind (leaves? (n + 1)) = (b.leave?.bind (leaves? n)).bind leave?
    rw [Option.bind_assoc]
    exact congrArg _ (funext ih)

/-- As many namespaces are left as were opened: every level on the way is there now. -/
theorem leaves?_foldl_enter (keys : List NamespaceKey) (b : Builder) :
    (keys.foldl enter b).leaves? keys.length = some ⟨update id keys b.here, b.above⟩ := by
  induction keys generalizing b with
  | nil => rfl
  | cons key keys ih =>
    rw [List.foldl_cons, List.length_cons, leaves?_succ, ih]
    rfl

/-- To leave a number of namespaces takes as many keys off the path. -/
theorem exists_leaves? {p q : List NamespaceKey} {b : Builder} (h : b.path = p ++ q) :
    ∃ left, b.leaves? q.length = some left ∧ left.path = p := by
  induction q using List.reverseRecOn generalizing b with
  | nil => exact ⟨b, rfl, by rw [h, List.append_nil]⟩
  | append_singleton q key ih =>
    obtain ⟨here, above⟩ := b
    cases above with
    | nil => simp [path] at h
    | cons outer above =>
      have hpath : (Builder.edit ⟨here, outer :: above⟩ .leave).path = p ++ q := by
        rw [path_edit, h, ← List.append_assoc]
        exact List.dropLast_concat
      rw [List.length_append]
      exact ih hpath

end Builder

/-- Levels on a path that is opened keep what they hold, and have a new namespace only where it was
missing. -/
theorem Tree.shell_level_update_id {key : NamespaceKey} (p q : List NamespaceKey) (t : Tree) :
    ((update id (p ++ key :: q) t).level p).shell =
      ((t.level p).notes.toList, (t.level p).entries.toList,
        if key ∈ (t.level p).keys then (t.level p).keys else (t.level p).keys ++ [key]) := by
  induction p generalizing t with
  | nil =>
    rw [List.nil_append, level_nil, level_nil, update, shell, keys_insertChild]
    rfl
  | cons k p ih => rw [List.cons_append, update, level_insertChild, if_pos rfl, ih, level_cons]

/-- A file in which a number of tokens more are read. -/
def OpenFile.past (f : OpenFile) (n : Nat) : OpenFile :=
  { f with scanner := f.scanner.ahead n }

namespace Run

variable {files : SourceFiles} {session : Session} {file : OpenFile} {outer : List OpenFile}
  {t : Scanner} {left : Builder}

variable {isStrict : Bool} {names : List String}

/-- **A head with a dotted name is read in one round.** -/
theorem step_dottedHead (hgo : session.isCancelled = false) (hne : names ≠ [])
    (h : file.scanner.Announces (Sign.dottedHead isStrict names)) :
    (Run.mk session (file :: outer)).step files =
      .reading ⟨{ session with
          builder := (NamespaceKey.ofNames isStrict names).foldl Builder.enter session.builder },
        file.past (Sign.dottedHead isStrict names).length :: outer⟩ := by
  have hlater : ∃ sign signs,
      Sign.dottedHead isStrict names = sign :: signs ∧ sign.kind ≠ .eof := by
    cases isStrict with
    | false => exact ⟨_, _, rfl, by decide⟩
    | true => exact ⟨_, _, rfl, by decide⟩
  obtain ⟨sign, signs, hsigns, heof⟩ := hlater
  have hsteps := h
  rw [hsigns] at hsteps
  obtain ⟨⟨hkind, -⟩, hnext, hrest⟩ := hsteps
  refine step_of_recognize_none hgo hnext (hkind ▸ heof)
    (recognize_dottedHead hne h session.builder) (Trivia.lineComments_eq_nil ?_)
  rw [hsigns]
  exact hrest.skipsBlanks.isComment_eq

/-- **Nested heads are read in one round each.** -/
theorem rounds_nestedHeads (hgo : session.isCancelled = false)
    (h : file.scanner.Announces (Sign.nestedHeads isStrict names)) :
    rounds files names.length ⟨session, file :: outer⟩ =
      some ⟨{ session with
          builder := (NamespaceKey.ofNames isStrict names).foldl Builder.enter session.builder },
        file.past (Sign.nestedHeads isStrict names).length :: outer⟩ := by
  induction names generalizing session file with
  | nil => rfl
  | cons n names ih =>
    obtain ⟨hhead, hrest⟩ := Scanner.announces_append.1 h
    rw [List.length_cons]
    refine rounds_succ_eq_some.2 ⟨_, step_dottedHead hgo (List.cons_ne_nil n []) hhead, ?_⟩
    have hpast : (file.past (Sign.dottedHead isStrict [n]).length).past
        (Sign.nestedHeads isStrict names).length =
          file.past (Sign.nestedHeads isStrict (n :: names)).length := by
      rw [OpenFile.past, OpenFile.past, Scanner.ahead_ahead, ← List.length_append]
      rfl
    rw [← hpast]
    exact ih hgo hrest

/-- **Each closing brace leaves a namespace.** -/
theorem rounds_braces {n : Nat} (hgo : session.isCancelled = false)
    (h : file.scanner.Announces (Sign.braces n)) (hleaves : session.builder.leaves? n = some left) :
    rounds files n ⟨session, file :: outer⟩ =
      some ⟨{ session with builder := left }, file.past n :: outer⟩ := by
  induction n generalizing session file with
  | zero =>
    obtain rfl := Option.some.inj hleaves
    rfl
  | succ n ih =>
    obtain ⟨⟨hkind, -⟩, hnext, hrest⟩ := h
    obtain ⟨b, hleave, hleaves⟩ := Option.bind_eq_some_iff.1 hleaves
    have hbrace : file.scanner.next.token.kind = .rbrace := hkind
    refine rounds_succ_eq_some.2 ⟨_, step_of_recognize_none hgo hnext (by rw [hbrace]; decide)
      (recognize_rbrace hbrace hleave)
      (Trivia.lineComments_eq_nil (Scanner.SkipsBlanks.refl _).isComment_eq), ?_⟩
    exact ih hgo hrest hleaves

/-- **Dotted namespaces are nested namespaces.**  A head with a dotted name leaves the session that
nested heads leave, with the namespaces of its names open, each the one that was there before if
there was one.  Whatever is declared in them, each closing brace leaves one of them; where nothing
is, the tree is as before but for the namespaces that were missing.  A session that is to stop reads
neither. -/
theorem dottedHead_eq_nestedHeads (files : SourceFiles) (session : Session) {file file' : OpenFile}
    (outer : List OpenFile) (isStrict : Bool) {names : List String} {keys : List NamespaceKey}
    (hne : names ≠ []) (hkeys : keys = NamespaceKey.ofNames isStrict names)
    (h : file.scanner.Announces (Sign.dottedHead isStrict names))
    (h' : file'.scanner.Announces (Sign.nestedHeads isStrict names)) :
    (session.isCancelled = true → ∃ failure failure',
      (Run.mk session (file :: outer)).step files = .failed failure session ∧
        (Run.mk session (file' :: outer)).step files = .failed failure' session) ∧
    (session.isCancelled = false → ∃ b : Builder,
      b.path = session.builder.path ++ keys ∧
      b.here = session.builder.here.level keys ∧
      rounds files 1 ⟨session, file :: outer⟩ =
        some ⟨{ session with builder := b },
          file.past (Sign.dottedHead isStrict names).length :: outer⟩ ∧
      rounds files names.length ⟨session, file' :: outer⟩ =
        some ⟨{ session with builder := b },
          file'.past (Sign.nestedHeads isStrict names).length :: outer⟩ ∧
      ∀ closing : OpenFile,
        (closing.scanner.Announces (Sign.braces names.length) →
          rounds files names.length ⟨{ session with builder := b }, closing :: outer⟩ =
            some ⟨{ session with
              builder := ⟨session.builder.here.update id keys, session.builder.above⟩ },
              closing.past names.length :: outer⟩) ∧
        ∀ (later : Session) (j : Nat), j ≤ names.length → later.isCancelled = false →
          later.builder.path = session.builder.path ++ keys →
          closing.scanner.Announces (Sign.braces j) →
          ∃ left, left.path = session.builder.path ++ keys.take (names.length - j) ∧
            rounds files j ⟨later, closing :: outer⟩ =
              some ⟨{ later with builder := left }, closing.past j :: outer⟩) ∧
    ∀ p key q, keys = p ++ key :: q →
      ((session.builder.here.update id keys).level p).shell =
        (((session.builder.here.level p).notes.toList,
          (session.builder.here.level p).entries.toList,
          if key ∈ (session.builder.here.level p).keys then (session.builder.here.level p).keys
          else (session.builder.here.level p).keys ++ [key])) := by
  have hlength : keys.length = names.length := by rw [hkeys]; exact List.length_map _
  refine ⟨fun hcancelled => ?_, fun hgo => ⟨keys.foldl Builder.enter session.builder,
    Builder.path_foldl_enter _ _, Builder.here_foldl_enter _ _, ?_, ?_,
    fun closing => ⟨?_, ?_⟩⟩, ?_⟩
  · refine ⟨file.failure .cancelled file.scanner.line none,
      file'.failure .cancelled file'.scanner.line none, ?_, ?_⟩ <;>
      rw [step, advance_of_files files.resolve rfl, if_pos hcancelled]
  · exact hkeys ▸ rounds_succ_eq_some.2 ⟨_, step_dottedHead hgo hne h, rfl⟩
  · exact hkeys ▸ rounds_nestedHeads hgo h'
  · intro hbraces
    exact rounds_braces hgo hbraces (hlength ▸ Builder.leaves?_foldl_enter keys session.builder)
  · intro later j hj hgo' hpath hbraces
    have hsplit : later.builder.path =
        (session.builder.path ++ keys.take (names.length - j)) ++ keys.drop (names.length - j) := by
      rw [hpath, List.append_assoc, List.take_append_drop]
    obtain ⟨left, hleaves, hleft⟩ := Builder.exists_leaves? hsplit
    rw [List.length_drop, hlength, Nat.sub_sub_self hj] at hleaves
    exact ⟨left, hleft, rounds_braces hgo' hbraces hleaves⟩
  · rintro p key q rfl
    exact Tree.shell_level_update_id p q session.builder.here

/-- Where `strict namespace A` is there already, `strict namespace A.B` goes into it. -/
theorem dottedHead_eq_nestedHeads_reentered :
    let session := { Session.start .standard with
      builder := ⟨⟨#[], #[], [(⟨true, some "A"⟩, .empty)]⟩, []⟩ }
    let dotted := OpenFile.start "m.acs" "strict namespace A.B \x7b" none
    let nested := OpenFile.start "m.acs" "strict namespace A \x7b Strict Namespace B\n\x7b" none
    dotted.scanner.Announces (Sign.dottedHead true ["A", "B"]) ∧
      nested.scanner.Announces (Sign.nestedHeads true ["A", "B"]) ∧
      ∃ b : Builder, b.path = [⟨true, some "A"⟩, ⟨true, some "B"⟩] ∧
        rounds (.ofList []) 1 ⟨session, [dotted]⟩ =
          some ⟨{ session with builder := b }, [dotted.past 6]⟩ ∧
        rounds (.ofList []) 2 ⟨session, [nested]⟩ =
          some ⟨{ session with builder := b }, [nested.past 8]⟩ := by
  intro session dotted nested
  have hdotted : dotted.scanner.Announces (Sign.dottedHead true ["A", "B"]) := by decide +kernel
  have hnested : nested.scanner.Announces (Sign.nestedHeads true ["A", "B"]) := by decide +kernel
  obtain ⟨b, hpath, -, hone, htwo, -⟩ := (dottedHead_eq_nestedHeads (.ofList []) session []
    true (List.cons_ne_nil _ _) rfl hdotted hnested).2.1 rfl
  exact ⟨hdotted, hnested, b, hpath, hone, htwo⟩

end Run

end AcsOutline
