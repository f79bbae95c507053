import AcsOutline.Scanner.Reading

/-!
# Braced blocks

Bodies are not looked into: `skipTo` goes on from an opening brace until the braces are no deeper
than they were before it.  The two readings of braced initialisers follow the same rule; one keeps
the text as it is written, the other the tokens without the commas.
-/

namespace AcsOutline.Grammar

open Reading

/-- One round of `skipTo`. -/
def skipToRound (depth : Int) (what : String) (opening : Span) (_ : Unit) :
    Reading (Round Unit Unit) := do
  if (← braceDepth) ≤ depth then
    return .done ()
  else if (← next).kind = .eof then
    throw (.openBody what opening)
  else
    return .again ()

theorem skipToRound_progresses (depth : Int) (what : String) (opening : Span) :
    Progresses (skipToRound depth what opening) := by
  intro _ s _ t h
  obtain ⟨_, _, hd, h⟩ := bind_eq_ok.1 h
  cases hd
  split at h
  · cases h
  · obtain ⟨_, _, hn, h⟩ := bind_eq_ok.1 h
    cases hn
    split at h
    · cases h
    next hne =>
      cases h
      exact ⟨.refl _, Or.inr hne⟩

theorem within_skipToRound (depth : Int) (what : String) (opening : Span) (u : Unit) :
    (skipToRound depth what opening u).Within :=
  within_braceDepth.bind fun _ => by
    split
    · exact within_pure _
    · refine within_next.bind fun _ => ?_
      split
      · exact (consumes_throw _).within
      · exact within_pure _

/-- Reads tokens until the braces are no deeper than `depth`. -/
def skipTo (depth : Int) (what : String) (opening : Span) : Reading Unit :=
  loop (skipToRound depth what opening) (skipToRound_progresses depth what opening) ()

theorem within_skipTo (depth : Int) (what : String) (opening : Span) :
    (skipTo depth what opening).Within :=
  within_loop _ (within_skipToRound depth what opening) ()

/-- The source between two byte offsets. -/
def sourceText (start stop : Nat) : Reading String := fun s =>
  .ok (String.ofList (Text.slice s.source start stop)) s

theorem within_sourceText (start stop : Nat) : (sourceText start stop).Within := by
  rintro s a t ⟨⟩
  exact .refl s

/-- Reads the braced initialiser of an array that follows and keeps it as it is written. -/
def arrayInitializer : Reading String := do
  let depth ← braceDepth
  let opening ← expect .lbrace "`\x7b` to open the array initializer"
  skipTo depth "array initializer" opening.span
  let closing ← current
  sourceText opening.span.start closing.span.stop

theorem within_arrayInitializer : arrayInitializer.Within :=
  within_braceDepth.bind fun _ => (consumes_expect (by decide) _).within.bind fun _ =>
    (within_skipTo _ _ _).bind fun _ => within_current.bind fun _ => within_sourceText _ _

/-- One round of `recordInitializer`: a token between the braces, or the closing brace.  At the end
of input `skipTo` is asked for what is left open; where the braces are deeper than `depth`, as they
are between those of an initialiser, it fails and nothing follows it (`recordRound_of_eof`). -/
def recordRound (depth : Int) (opening : Span) (found : List String) :
    Reading (Round (List String) (List String)) := do
  let t ← next
  if t.kind = .eof then
    skipTo depth "struct initializer" opening
    return .done found.reverse
  else if (← braceDepth) = depth then
    return .done found.reverse
  else if t.kind = .comma then
    return .again found
  else
    return .again (t.literal :: found)

theorem recordRound_progresses (depth : Int) (opening : Span) :
    Progresses (recordRound depth opening) := by
  intro found s found' t h
  obtain ⟨_, _, hn, h⟩ := bind_eq_ok.1 h
  cases hn
  split at h
  · obtain ⟨_, _, -, h⟩ := bind_eq_ok.1 h
    cases h
  next hne =>
    obtain ⟨_, _, hd, h⟩ := bind_eq_ok.1 h
    cases hd
    split at h
    · cases h
    · split at h <;> cases h <;> exact ⟨.refl _, Or.inr hne⟩

theorem within_recordRound (depth : Int) (opening : Span) (found : List String) :
    (recordRound depth opening found).Within :=
  within_next.bind fun _ => by
    split
    · exact (within_skipTo _ _ _).bind fun _ => within_pure _
    · refine within_braceDepth.bind fun _ => ?_
      split
      · exact within_pure _
      · split <;> exact within_pure _

/-- Reads the braced initialiser of a struct that follows: every token between the braces as
it is written, the commas left out. -/
def recordInitializer : Reading (List String) := do
  let depth ← braceDepth
  let opening ← advance
  loop (recordRound depth opening.span) (recordRound_progresses depth opening.span) []

theorem within_recordInitializer : recordInitializer.Within :=
  within_braceDepth.bind fun _ => consumes_advance.within.bind fun _ =>
    within_loop _ (within_recordRound _ _) []

end AcsOutline.Grammar
