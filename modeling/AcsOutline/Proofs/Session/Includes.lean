import AcsOutline.Proofs.Session.Rounds

/-!
# Following includes

What a round comes to that reads an include (`Run.included?`): the file is refused where it is
recorded, and asked for where it is not (`Run.advance_included`).
-/

namespace AcsOutline

namespace Session

@[simp]
theorem options_harvest (s : Session) (file : String) (trivia : List Trivia)
    (subject : Option String) : (s.harvest file trivia subject).options = s.options := by
  obtain ⟨_, h⟩ := s.exists_harvest_eq file trivia subject
  rw [h]

theorem options_takeDoc (s : Session) (file : String) (line : Nat) (trivia : List Trivia) :
    (s.takeDoc file line trivia).2.options = s.options := by
  obtain ⟨_, _, h⟩ := s.exists_takeDoc_eq file line trivia
  rw [h]

/-- What stands before a declaration leaves the visited files and the options alone. -/
theorem continues_of_takeDoc {s s' : Session} {file : String} {line : Nat} {leading : List Trivia}
    {result : Except Fault Unit}
    (h : (s.harvest file leading none).takeDoc file line leading = (result, s')) :
    s'.Continues s ∧ s'.options = s.options := by
  have hs : s' = ((s.harvest file leading none).takeDoc file line leading).2 :=
    (congrArg Prod.snd h).symm
  rw [hs, options_takeDoc, options_harvest]
  exact ⟨(Continues.takeDoc _ _ _ _).trans (Continues.harvest _ _ _ _), rfl⟩

/-- To cancel a session, or not to, leaves its files visited. -/
theorem visited_ite_cancel (s : Session) (cancels : Bool) :
    (if cancels then s.cancel else s).visited = s.visited := by
  split <;> rfl

theorem visited_visit_of_not_mem {s : Session} {key : String} (h : key ∉ s.visited) :
    (s.visit key).visited = s.visited.push key := by
  unfold visit
  rw [if_neg (by simpa using h)]

/-- What was recorded is refused, and nothing else, unless the session is cancelled. -/
theorem request_eq {s : Session} (h : s.isCancelled = false) (resolve : String → Location)
    (path : String) (site : Option IncludeSite) :
    s.request resolve path site =
      if (resolve path).key ∈ s.visited then .error (failureOf path site (.repeatedFile path))
      else .ok ⟨resolve path, path, site⟩ := by
  simp [request, h]

end Session

/-- A failure keeps the code of the fault behind it. -/
theorem code_failureOf (path : String) (site : Option IncludeSite) (fault : Fault) :
    (failureOf path site fault).diagnostic.code = some fault.code := by
  cases site <;> rfl

/-! ## What an include comes to -/

namespace Run

/-- The path that the next round reads as an include, if it reads one. -/
def included? (r : Run) : Option String :=
  match r.files with
  | [] => none
  | file :: _ =>
    let first := file.scanner.next
    let leading := first.triviaSince file.scanner.triviaCount
    if r.session.isCancelled ∨ first.token.kind = .eof then none
    else
      match (r.session.harvest file.name leading none).takeDoc file.name first.token.line leading
      with
      | (.error _, _) => none
      | (.ok (), session) =>
        match recognize ⟨first, session.builder⟩ with
        | .ok (some (.includeFile path)) _ => some path
        | _ => none

/-- A round that reads an include follows it from the file that includes. -/
theorem advance_of_included {r : Run} {path : String} (h : r.included? = some path) :
    ∃ file outer, r.files = file :: outer ∧ r.session.isCancelled = false ∧
      ∀ resolve, ∃ site session scanner, session.Continues r.session ∧
        session.options = r.session.options ∧
        r.advance resolve = follow resolve path site session { file with scanner } outer := by
  unfold included? at h
  split at h
  · cases h
  next file outer hfiles =>
    dsimp only at h
    split at h
    · cases h
    next hgo =>
      rw [not_or, Bool.not_eq_true] at hgo
      refine ⟨file, outer, hfiles, hgo.1, fun resolve => ?_⟩
      split at h
      · cases h
      next session hdoc =>
        split at h
        next path' desk hread =>
          obtain rfl := Option.some.inj h
          obtain ⟨hcontinues, hoptions⟩ := Session.continues_of_takeDoc hdoc
          have hadvance : r.advance resolve = readDeclaration resolve file.scanner.next session
              file outer := by
            rw [advance_of_files resolve hfiles, if_neg (by simp [hgo.1])]
            unfold readFile
            dsimp only
            rw [if_neg hgo.2, hdoc]
          rw [hadvance]
          unfold readDeclaration
          rw [hread]
          unfold declare
          dsimp only
          refine ⟨_, _, _, (Session.Continues.harvest _ _ _ _).trans ?_, ?_, rfl⟩
          · exact ⟨hcontinues.visited_eq, hcontinues.isCancelled_eq⟩
          · rw [Session.options_harvest]
            exact hoptions
        · cases h

end Run

/-- A stage in which a file was refused because it is recorded. -/
def Stage.Refuses (visited : Array String) (stage : Stage) : Prop :=
  ∃ failure session, stage = .over (.failed failure session) ∧
    failure.diagnostic.code = some .fileRepeated ∧ session.visited = visited

/-- **An include is refused where its file is recorded**, and asked for where it is not, unless it
is one of those that are known without being read. -/
theorem Run.advance_included {r : Run} {path : String} (h : r.included? = some path)
    {file : OpenFile} {outer : List OpenFile} (hfiles : r.files = file :: outer)
    (himplicit : r.session.options.isImplicit path = false) (resolve : String → Location) :
    let target := includeTarget file path
    if (resolve target).key ∈ r.session.visited then
      (r.advance resolve).Refuses r.session.visited
    else
      ∃ site r', r.advance resolve = .wanting ⟨resolve target, target, some site⟩ r' ∧
        r'.session.visited = r.session.visited := by
  intro target
  obtain ⟨file', outer', hfiles', hgo, hfollow⟩ := advance_of_included h
  obtain ⟨rfl, rfl⟩ := List.cons.inj (hfiles.symm.trans hfiles')
  obtain ⟨site, session, scanner, hcontinues, hoptions, hadvance⟩ := hfollow resolve
  have hsame : includeTarget { file with scanner } path = target := rfl
  have hrequest := Session.request_eq (hcontinues.isCancelled_eq.trans hgo) resolve target site
  rw [hcontinues.visited_eq] at hrequest
  rw [hadvance, follow, hoptions, himplicit, if_neg Bool.false_ne_true, hsame, hrequest]
  by_cases hmem : (resolve target).key ∈ r.session.visited
  · rw [if_pos hmem, if_pos hmem]
    exact ⟨_, session, rfl, code_failureOf target site _, hcontinues.visited_eq⟩
  · rw [if_neg hmem, if_neg hmem]
    exact ⟨site, _, rfl, hcontinues.visited_eq⟩

end AcsOutline
