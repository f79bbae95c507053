import AcsOutline.Proofs.Grammar.Bodies
import Mathlib.Data.List.Nodup

/-!
# The words before the body of a script

Each word before the body of a script is of one sort, which its text tells
(`ModifierSort.ofWord`), and takes the place of its sort.  The words are taken up to the first one
whose place is taken, and that word is the fault, together with the one that took the place
(`Modifiers.addAll_cases`).  So the words form a set: their order is of no account, and none of them
can be given twice (`script_words`).
-/

namespace AcsOutline

/-- The sort of a word, told by its text. -/
def Grammar.ModifierSort.ofWord (word : String) : ModifierSort :=
  if Text.sameWord word "clientside" then clientside
  else if Text.sameWord word "net" then net else activator

/-- The sort of a token by its text. -/
def Token.sort (t : Token) : Grammar.ModifierSort :=
  .ofWord t.text

namespace Grammar

open Reading

theorem ModifierSort.ofToken_eq {t : Token} (h : t.kind = .symbol) : ofToken t = t.sort := by
  have hword : ∀ word, t.isWord word = Text.sameWord t.text word := by
    intro word
    rw [Token.isWord, h]
    rfl
  rw [ofToken, Token.sort, ofWord, hword, hword]

/-- Among some words, `second` is the first whose sort was given before it, by `first`. -/
def Repeats (words : List Token) (first second : Token) : Prop :=
  ∃ before after, words = before ++ second :: after ∧ (before.map Token.sort).Nodup ∧
    first ∈ before ∧ first.sort = second.sort

theorem Repeats.not_nodup {words : List Token} {first second : Token}
    (h : Repeats words first second) : ¬(words.map Token.sort).Nodup := by
  obtain ⟨before, after, rfl, -, hfirst, hsort⟩ := h
  intro hnodup
  rw [List.map_append, List.map_cons] at hnodup
  have hdisjoint := List.disjoint_of_nodup_append hnodup
  exact hdisjoint (List.mem_map_of_mem hfirst) (hsort ▸ List.mem_cons_self)

/-! ## Taking words -/

namespace Modifiers

variable {m : Modifiers} {added words : List Token}

/-- Takes some words one by one. -/
def addAll (m : Modifiers) (words : List Token) : Except Fault Modifiers :=
  words.foldlM add m

/-- In each place is the first word of its sort. -/
def Holds (m : Modifiers) (words : List Token) : Prop :=
  ∀ sort, m.get? sort = words.find? (·.sort = sort)

theorem holds_empty : empty.Holds [] := by
  intro sort
  cases sort <;> rfl

theorem get?_set (m : Modifiers) (t : Token) (sort sort' : ModifierSort) :
    (m.set t sort).get? sort' = if sort' = sort then some t else m.get? sort' := by
  cases sort <;> cases sort' <;> rfl

/-- A word takes its place, or finds the word that took it. -/
theorem add_eq (hm : m.Holds added) {t : Token} (ht : t.kind = .symbol) :
    m.add t = match added.find? (·.sort = t.sort) with
      | some first => .error (.repeatedModifier first t)
      | none => .ok (m.set t t.sort) := by
  rw [add, ModifierSort.ofToken_eq ht]
  show (match m.get? t.sort with | some first => _ | none => _) = _
  rw [hm t.sort]

theorem Holds.set (hm : m.Holds added) {t : Token}
    (hfree : added.find? (·.sort = t.sort) = none) : (m.set t t.sort).Holds (added ++ [t]) := by
  intro sort
  rw [get?_set, hm sort, List.find?_append]
  by_cases hsort : sort = t.sort
  · subst hsort
    rw [if_pos rfl, hfree]
    simp
  · rw [if_neg hsort, List.find?_singleton]
    simp [Ne.symm hsort]

/-- **Words are taken up to the first one whose sort was given before.** -/
theorem addAll_cases (hm : m.Holds added) (hadded : (added.map Token.sort).Nodup)
    (hwords : ∀ t ∈ words, t.kind = .symbol) :
    (∃ m', m.addAll words = .ok m' ∧ m'.Holds (added ++ words) ∧
        ((added ++ words).map Token.sort).Nodup) ∨
      ∃ first second, m.addAll words = .error (.repeatedModifier first second) ∧
        Repeats (added ++ words) first second := by
  induction words generalizing m added with
  | nil =>
    left
    rw [List.append_nil]
    exact ⟨m, rfl, hm, hadded⟩
  | cons t words ih =>
    have hadd := add_eq hm (hwords t List.mem_cons_self)
    have hsplit : added ++ t :: words = added ++ [t] ++ words := by simp
    cases hfind : added.find? (·.sort = t.sort) with
    | some first =>
      right
      rw [hfind] at hadd
      have hfirst : first ∈ added := List.mem_of_find?_eq_some hfind
      have hsort : first.sort = t.sort := by simpa using List.find?_some hfind
      refine ⟨first, t, ?_, added, words, rfl, hadded, hfirst, hsort⟩
      rw [addAll, List.foldlM_cons, hadd]
      rfl
    | none =>
      rw [hfind] at hadd
      have hnew : t.sort ∉ added.map Token.sort := by
        intro hmem
        obtain ⟨first, hfirst, hsort⟩ := List.mem_map.1 hmem
        have hnone := List.find?_eq_none.1 hfind first hfirst
        simp [hsort] at hnone
      have hnodup : ((added ++ [t]).map Token.sort).Nodup := by
        rw [List.map_append, List.map_singleton, ← List.concat_eq_append]
        exact hadded.concat hnew
      have hrest : m.addAll (t :: words) = (m.set t t.sort).addAll words := by
        rw [addAll, List.foldlM_cons, hadd]
        rfl
      rw [hrest, hsplit]
      exact ih (hm.set hfind) hnodup fun u hu => hwords u (List.mem_cons_of_mem t hu)

end Modifiers

/-! ## Reading words -/

variable {s o : Scanner} {ps : List ScriptParameter} {words : List Token}

/-- Symbols are taken one after the other. -/
theorem modifiersFrom_run (m : Modifiers) (depth : Int) (s : Scanner) (n : Nat)
    (hwords : ∀ t ∈ s.run n, t.kind = .symbol) :
    match m.addAll (s.run n) with
    | .ok m' => ∃ depth', modifiersFrom m depth s = modifiersFrom m' depth' (s.ahead n)
    | .error fault => ∃ t, modifiersFrom m depth s = .error fault t := by
  induction n generalizing m depth s with
  | zero => exact ⟨depth, rfl⟩
  | succ n ih =>
    have hkind : s.token.kind = .symbol := hwords s.token List.mem_cons_self
    have hround : modifierRound (m, depth) s =
        match m.add s.token with
        | .ok m' => .ok (.again (m', s.braces)) s.next
        | .error fault => .error fault s := by
      rw [modifierRound, current_bind, if_neg (by rw [hkind]; decide), if_pos hkind]
      cases m.add s.token <;> rfl
    show match ((s.token :: s.next.run n).foldlM Modifiers.add m : Except Fault Modifiers) with
      | .ok m' => _
      | .error fault => _
    rw [List.foldlM_cons, modifiersFrom, loop_eq, hround]
    cases m.add s.token with
    | error fault => exact ⟨s, rfl⟩
    | ok m' => exact ih m' s.braces s.next fun t ht => hwords t (List.mem_cons_of_mem _ ht)

/-! ## Scripts and their words -/

/-- The script before whose body some words stand. -/
def scriptOf (id : Token) (ps : List ScriptParameter) (words : List Token) : ScriptDecl where
  identifier := id.text
  isQuoted := id.kind == .string
  activator := (words.find? (·.sort = .activator)).map typeText
  isClientside := (words.find? (·.sort = .clientside)).isSome
  isNet := (words.find? (·.sort = .net)).isSome
  parameters := ps

theorem Modifiers.Holds.script_eq {m : Modifiers} (h : m.Holds words) (id : Token)
    (ps : List ScriptParameter) : m.script id ps = scriptOf id ps words := by
  have hactivator : m.activator = words.find? (·.sort = .activator) := h .activator
  have hclientside : m.clientside = words.find? (·.sort = .clientside) := h .clientside
  have hnet : m.net = words.find? (·.sort = .net) := h .net
  rw [Modifiers.script, scriptOf, hactivator, hclientside, hnet]

/-- What is found by its sort is the same in every order, if no sort is given twice. -/
theorem find?_ofWord_of_perm {texts texts' : List String} (h : texts.Perm texts')
    (hnodup : (texts.map ModifierSort.ofWord).Nodup) (sort : ModifierSort) :
    texts.find? (ModifierSort.ofWord · = sort) = texts'.find? (ModifierSort.ofWord · = sort) := by
  have hfound : ∀ {ws : List String}, (ws.map ModifierSort.ofWord).Nodup → ∀ w,
      ws.find? (ModifierSort.ofWord · = sort) = some w ↔ w ∈ ws ∧ ModifierSort.ofWord w = sort := by
    intro ws hws w
    constructor
    · intro hw
      exact ⟨List.mem_of_find?_eq_some hw, by simpa using List.find?_some hw⟩
    · rintro ⟨hmem, hsort⟩
      obtain ⟨v, hv⟩ : ∃ v, ws.find? (ModifierSort.ofWord · = sort) = some v := by
        refine Option.isSome_iff_exists.1 (List.find?_isSome.2 ⟨w, hmem, ?_⟩)
        exact decide_eq_true hsort
      have hsort' : ModifierSort.ofWord v = sort := by simpa using List.find?_some hv
      rw [hv, List.inj_on_of_nodup_map hws (List.mem_of_find?_eq_some hv) hmem
        (hsort'.trans hsort.symm)]
  have hnodup' : (texts'.map ModifierSort.ofWord).Nodup := (h.map _).nodup_iff.1 hnodup
  refine Option.ext fun w => ?_
  rw [hfound hnodup, hfound hnodup', h.mem_iff]

/-- **The order of words is of no account.** -/
theorem scriptOf_perm {id id' : Token} {words' : List Token} (htext : id'.text = id.text)
    (hkind : id'.kind = id.kind)
    (hwords : (words'.map Token.text).Perm (words.map Token.text))
    (hnodup : (words.map Token.sort).Nodup) : scriptOf id' ps words' = scriptOf id ps words := by
  have hsorts : ((words'.map Token.text).map ModifierSort.ofWord).Nodup := by
    refine (hwords.map _).nodup_iff.2 ?_
    rw [List.map_map]
    exact hnodup
  have hfind : ∀ sort, (words'.find? (·.sort = sort)).map Token.text =
      (words.find? (·.sort = sort)).map Token.text := by
    intro sort
    have h := find?_ofWord_of_perm hwords hsorts sort
    rw [List.find?_map, List.find?_map] at h
    exact h
  have hsome : ∀ sort, (words'.find? (·.sort = sort)).isSome =
      (words.find? (·.sort = sort)).isSome := by
    intro sort
    have h := congrArg Option.isSome (hfind sort)
    rwa [Option.isSome_map, Option.isSome_map] at h
  have hactivator : (words'.find? (·.sort = .activator)).map typeText =
      (words.find? (·.sort = .activator)).map typeText := by
    have h := congrArg (Option.map Text.lowercase) (hfind .activator)
    rwa [Option.map_map, Option.map_map] at h
  rw [scriptOf, scriptOf, htext, hkind, hactivator, hsome, hsome]

/-- A script begins at `s`; behind its number or name and its parameters stand some words, all of
them symbols, and `o` is the place behind the words. -/
structure ScriptWords (s o : Scanner) (ps : List ScriptParameter) (words : List Token) : Prop where
  keyword : s.token.kind = .keyword .scriptWord
  id : isScriptId s.next.token = true
  run : ∃ start depth, scriptParameters s.next = .ok (ps, depth) start ∧
    start.run words.length = words ∧ start.ahead words.length = o
  symbols : ∀ t ∈ words, t.kind = .symbol

/-- A body begins at `o`, and it is closed. -/
structure HasBody (o : Scanner) : Prop where
  opens : o.token.kind = .lbrace
  closes : ∃ n, Token.CloseOne (o.next.run n)

/-- **What becomes of a script is told by the sorts of its words.** -/
theorem ScriptWords.outcome (h : ScriptWords s o ps words) :
    ((words.map Token.sort).Nodup ∧ (o.token.kind = .lbrace → EndsBody o "script"
        (fun d _ => d = some (.script (scriptOf s.next.token ps words))) (scriptDeclaration s))) ∨
      ∃ first second t, Repeats words first second ∧
        scriptDeclaration s = .error (.repeatedModifier first second) t := by
  obtain ⟨start, depth, hparameters, hrun, hplace⟩ := h.run
  have hsymbols : ∀ t ∈ start.run words.length, t.kind = .symbol := by
    rw [hrun]
    exact h.symbols
  have hmodifiers := modifiersFrom_run .empty depth start words.length hsymbols
  rw [hrun, hplace] at hmodifiers
  rcases Modifiers.addAll_cases Modifiers.holds_empty List.nodup_nil h.symbols with
    ⟨m, hadd, hholds, hnodup⟩ | ⟨first, second, hadd, hrepeats⟩
  · left
    rw [hadd] at hmodifiers
    obtain ⟨depth', hmodifiers⟩ := hmodifiers
    refine ⟨hnodup, fun hopen => ?_⟩
    have hround : modifierRound (m, depth') o = .ok (.done (m, depth')) o := by
      rw [modifierRound, current_bind, if_pos hopen]
      rfl
    have hdone : modifiers depth start = .ok (m, depth') o := by
      show modifiersFrom .empty depth start = _
      rw [hmodifiers, modifiersFrom, loop_eq, hround]
    refine endsBody_of_skipTo hopen
      (scriptDeclaration_at_body h.keyword h.id hparameters hdone) fun n _ => ⟨_, ?_, rfl⟩
    rw [hholds.script_eq]
    rfl
  · right
    rw [hadd] at hmodifiers
    obtain ⟨t, hmodifiers⟩ := hmodifiers
    refine ⟨first, second, t, hrepeats, ?_⟩
    have hfails : modifiers depth start = .error (.repeatedModifier first second) t := hmodifiers
    rw [scriptDeclaration_after_parameters h.keyword h.id hparameters, bind_of_error hfails]

/-- The words before the body of a script form a set. -/
structure FormSet (s o : Scanner) (ps : List ScriptParameter) (words : List Token) : Prop where
  accepted_iff : HasBody o →
    ((∃ d t, scriptDeclaration s = .ok (some d) t) ↔ (words.map Token.sort).Nodup)
  permuted : ∀ {s' o' : Scanner} {words' : List Token}, ScriptWords s' o' ps words' →
    s'.next.token.text = s.next.token.text → s'.next.token.kind = s.next.token.kind →
    (words'.map Token.text).Perm (words.map Token.text) → HasBody o → HasBody o' →
    ∀ d t, scriptDeclaration s = .ok (some d) t → ∃ t', scriptDeclaration s' = .ok (some d) t'
  repeated : ¬(words.map Token.sort).Nodup → ∃ first second fault t, Repeats words first second ∧
    scriptDeclaration s = .error fault t ∧ fault.code.text = "E101" ∧
      fault.labels =
        [.primary second.span "repeated here", .secondary first.span "first given here"]

/-- A script with a body is accepted if no sort is given twice. -/
theorem ScriptWords.accepted (h : ScriptWords s o ps words) (hbody : HasBody o)
    (hnodup : (words.map Token.sort).Nodup) :
    ∃ t, scriptDeclaration s = .ok (some (.script (scriptOf s.next.token ps words))) t := by
  rcases h.outcome with ⟨-, hends⟩ | ⟨first, second, t, hrepeats, -⟩
  · obtain ⟨n, hn⟩ := Scanner.exists_closesAt hbody.closes
    obtain ⟨-, d, rfl, hd⟩ := (hends hbody.opens).closed n hn
    exact ⟨_, hd⟩
  · exact absurd hnodup hrepeats.not_nodup

/-- **The words before the body of a script form a set**: none is given twice, and their order is
of no account. -/
theorem script_words (h : ScriptWords s o ps words) : FormSet s o ps words := by
  have hnodup_of_ok : ∀ d t, scriptDeclaration s = .ok d t → (words.map Token.sort).Nodup := by
    intro d t hok
    rcases h.outcome with ⟨hnodup, -⟩ | ⟨first, second, u, -, herror⟩
    · exact hnodup
    · rw [hok] at herror
      cases herror
  constructor
  · intro hbody
    constructor
    · rintro ⟨d, t, hok⟩
      exact hnodup_of_ok _ t hok
    · intro hnodup
      obtain ⟨t, ht⟩ := h.accepted hbody hnodup
      exact ⟨_, t, ht⟩
  · intro s' o' words' h' htext hkind hperm hbody hbody' d t hok
    have hnodup := hnodup_of_ok _ t hok
    have hnodup' : (words'.map Token.sort).Nodup := by
      have hsorts := (hperm.map ModifierSort.ofWord).nodup_iff
      rw [List.map_map, List.map_map] at hsorts
      exact hsorts.2 hnodup
    obtain ⟨u, hu⟩ := h.accepted hbody hnodup
    obtain ⟨u', hu'⟩ := h'.accepted hbody' hnodup'
    rw [hok] at hu
    cases hu
    rw [scriptOf_perm htext hkind hperm hnodup] at hu'
    exact ⟨u', hu'⟩
  · intro hnodup
    rcases h.outcome with ⟨hnodup', -⟩ | ⟨first, second, t, hrepeats, herror⟩
    · exact absurd hnodup' hnodup
    · exact ⟨first, second, _, t, hrepeats, herror, rfl, rfl⟩

/-- Three words in two orders, and a flag that is given twice in spite of another word between. -/
theorem script_words_orders :
    (∃ d t t', scriptDeclaration (Scanner.ofString "script 1 ENTER Net clientside \x7b\x7d").next =
        .ok (some d) t ∧
      scriptDeclaration (Scanner.ofString "script 1 clientside ENTER Net \x7b\x7d").next =
        .ok (some d) t') ∧
    ∃ fault t, scriptDeclaration (Scanner.ofString "script 1 NET open net").next = .error fault t ∧
      fault.code.text = "E101" := by
  constructor
  · let s := (Scanner.ofString "script 1 ENTER Net clientside \x7b\x7d").next
    let s' := (Scanner.ofString "script 1 clientside ENTER Net \x7b\x7d").next
    have hs : ScriptWords s (s.ahead 5) [] ((s.ahead 2).run 3) :=
      ⟨by decide +kernel, by decide +kernel, ⟨s.ahead 2, 0, by decide +kernel, rfl, rfl⟩,
        by decide +kernel⟩
    have hs' : ScriptWords s' (s'.ahead 5) [] ((s'.ahead 2).run 3) :=
      ⟨by decide +kernel, by decide +kernel, ⟨s'.ahead 2, 0, by decide +kernel, rfl, rfl⟩,
        by decide +kernel⟩
    have hbody : HasBody (s.ahead 5) := ⟨by decide +kernel, 1, by decide +kernel⟩
    have hbody' : HasBody (s'.ahead 5) := ⟨by decide +kernel, 1, by decide +kernel⟩
    have hsame : s'.next.token.text = s.next.token.text ∧ s'.next.token.kind = s.next.token.kind ∧
        (((s'.ahead 2).run 3).map Token.text).Perm (((s.ahead 2).run 3).map Token.text) := by
      decide +kernel
    obtain ⟨htext, hkind, hperm⟩ := hsame
    obtain ⟨d, t, hd⟩ := ((script_words hs).accepted_iff hbody).2 (by decide +kernel)
    obtain ⟨t', ht'⟩ := (script_words hs).permuted hs' htext hkind hperm hbody hbody' d t hd
    exact ⟨d, t, t', hd, ht'⟩
  · let s := (Scanner.ofString "script 1 NET open net").next
    have hs : ScriptWords s (s.ahead 5) [] ((s.ahead 2).run 3) :=
      ⟨by decide +kernel, by decide +kernel, ⟨s.ahead 2, 0, by decide +kernel, rfl, rfl⟩,
        by decide +kernel⟩
    obtain ⟨first, second, fault, t, -, hfault, hcode, -⟩ :=
      (script_words hs).repeated (by decide +kernel)
    exact ⟨fault, t, hfault, hcode⟩

end Grammar

end AcsOutline
