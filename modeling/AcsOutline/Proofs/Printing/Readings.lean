import AcsOutline.Proofs.Grammar.Agreement
import AcsOutline.Proofs.Printing.Places
import AcsOutline.Proofs.Scanner.Depths
import AcsOutline.Proofs.Value.RoundTrip

/-!
# Readings on a page

How readings go on from place to place on a printed line: `Reading.Finds` for those that end with
a token and `Reading.Gives` for those that end with a known result.  Both say that the reading
succeeds, wherever in a source the line stands.

There is one rule for each of the basic readings and for each way to combine them, so that a
declaration is read as its words are listed.  A value is read from its tokens because it is a fold
over them (`Value.read_of_faces`).
-/

namespace AcsOutline

open Printing

/-! ## Values -/

namespace Lexeme.InValue

variable {l : Lexeme}

theorem legible (h : l.InValue) : l.Legible := by
  rcases h.cases_legible with rfl | h
  · exact ⟨fun r _ => (read_opening r).1, fun r _ => (read_opening r).2⟩
  · exact h.1

/-- A lexeme of a value is spelled by a word. -/
theorem spells (h : l.InValue) : Spells (String.ofList l.spelling) l.kind l.text := by
  have hl : Lexeme.mk l.kind (String.ofList l.spelling).toList = l := by
    rw [String.toList_ofList]
  have hspells := Spells.of_legible (hl.symm ▸ h.legible)
  rwa [hl] at hspells

end Lexeme.InValue

namespace Scanner

/-- The lexemes of a value are read one by one. -/
theorem Faces.run {s : Scanner} {ls : List Lexeme} {ws : List String} {b : List Char}
    (h : s.Faces (page (ls.map (fun l => String.ofList l.spelling) ++ ws) b))
    (hls : ∀ l ∈ ls, l.InValue) :
    (s.ahead ls.length).Faces (page ws b) ∧ (s.ahead ls.length).mask = s.mask ∧
      s.SkipsBlanks (s.ahead ls.length) ∧
      (Value.endsValue (s.ahead ls.length).next.token.kind = true → s.next.ValueEnds ls.length) ∧
      ∀ nest : Value.Nest, nest.takeAll (s.next.run ls.length) = nest.takeLexemes ls := by
  induction ls generalizing s with
  | nil =>
    exact ⟨h, rfl, .refl s, fun hends => ⟨hends, fun i hi => absurd hi (Nat.not_lt_zero i)⟩,
      fun nest => rfl⟩
  | cons l ls ih =>
    have hl := hls l List.mem_cons_self
    obtain ⟨hshows, hrest, hskips⟩ := h.next_page hl.spells
    have hnext : s.next.Faces
        (page (ls.map (fun l => String.ofList l.spelling) ++ ws) b) :=
      ⟨⟨_, hrest, fun c hc => Or.inl (eq_space_of_mem_gap hc)⟩, by rw [mask_next, h.mask_blanks],
        h.counted.next⟩
    obtain ⟨hfaces, hmask, hskips', hends, htake⟩ :=
      ih hnext fun k hk => hls k (List.mem_cons_of_mem l hk)
    refine ⟨hfaces, hmask.trans s.mask_next, hskips.trans hskips', fun h => ?_, fun nest => ?_⟩
    · refine (hends h).cons ?_
      rw [hshows.kind_eq]
      exact hl.goes_on
    · show (nest.take s.next.token.kind s.next.token.text).takeAll (s.next.next.run ls.length) = _
      rw [htake, hshows.kind_eq, hshows.text_eq]
      rfl

end Scanner

namespace Value

/-- **A value is read from its tokens**, up to a token that ends it. -/
theorem read_of_faces {s : Scanner} {v : Value} {ws : List String} {b : List Char}
    (hv : LegibleLeaves v.pieces) (h : s.Faces (page (v.tokens ++ ws) b)) :
    ∃ e : Scanner, e.Faces (page ws b) ∧ e.mask = s.mask ∧ s.SkipsBlanks e ∧
      (endsValue e.next.token.kind = true → e.next.token.kind ≠ .eof →
        read s.next = .ok v e.next) := by
  rw [tokens, Piece.tokensAll_eq_writeAll, Piece.writeAll_texts] at h
  obtain ⟨hfaces, hmask, hskips, hends, htake⟩ := h.run hv.inValue
  refine ⟨_, hfaces, hmask, hskips, fun h heof => ?_⟩
  have hclosed : ¬s.next.OpensBeforeEnd (Piece.writeAll .lexemes v.pieces).length := by
    rintro ⟨-, -, hopen⟩
    rw [Scanner.ahead_next] at hopen
    exact heof hopen
  rw [read_eq (hends h), if_neg hclosed, ofRun, htake, Nest.takeLexemes_writeAll _ _ hv,
    Scanner.ahead_next]
  show EStateM.Result.ok (Value.mk (v.pieces.reverse ++ []).reverse) _ = _
  rw [List.append_nil, List.reverse_reverse]

end Value

namespace Reading

variable {α β : Type} {p : Reading α} {P Q R : Place} {a : α} {c : β} {t : Token}
  {kind kind' : TokenKind} {text text' expected u v w : String} {ws : List String} {b : List Char}
  {rs : List String}

/-- A reading that leads from one place to another and ends with a result. -/
def Gives (p : Reading α) (P : Place) (a : α) (Q : Place) : Prop :=
  ∀ ⦃s : Scanner⦄, s.At P → ∃ u, p s = .ok a u ∧ u.At Q

/-- A reading that leads from one place to another and ends with a token that says what is
given. -/
def Finds (p : Reading Token) (P : Place) (kind : TokenKind) (text : String) (Q : Place) : Prop :=
  ∀ ⦃s : Scanner⦄, s.At P → ∃ t u, p s = .ok t u ∧ t.Shows kind text ∧ u.At Q

/-! ## Combinations -/

theorem gives_pure (a : α) (P : Place) : (pure a : Reading α).Gives P a P :=
  fun s h => ⟨s, rfl, h⟩

theorem Gives.bind {f : α → Reading β} (hp : p.Gives P a R) (hf : (f a).Gives R c Q) :
    (p >>= f).Gives P c Q := by
  intro s h
  obtain ⟨t, hp, ht⟩ := hp h
  obtain ⟨u, hf, hu⟩ := hf ht
  exact ⟨u, bind_eq_ok.2 ⟨a, t, hp, hf⟩, hu⟩

/-- How deep the braces are does not matter to what is read. -/
theorem gives_braceDepth {f : Int → Reading β} (h : ∀ depth, (f depth).Gives P c Q) :
    (braceDepth >>= f).Gives P c Q :=
  fun s hs => h s.braces hs

theorem Finds.bind {p : Reading Token} {f : Token → Reading β} (hp : p.Finds P kind text R)
    (hf : ∀ t : Token, t.Shows kind text → (f t).Gives R c Q) : (p >>= f).Gives P c Q := by
  intro s h
  obtain ⟨a, t, hp, ha, ht⟩ := hp h
  obtain ⟨u, hf, hu⟩ := hf a ha ht
  exact ⟨u, bind_eq_ok.2 ⟨a, t, hp, hf⟩, hu⟩

theorem Gives.map (hp : p.Gives P a Q) (f : α → β) : (f <$> p).Gives P (f a) Q :=
  Gives.bind (f := fun a => pure (f a)) hp (gives_pure (f a) Q)

theorem bind_assoc_eq {γ : Type} (p : Reading α) (f : α → Reading β) (g : β → Reading γ) :
    (p >>= f >>= g) = p >>= fun a => f a >>= g := by
  funext s
  show EStateM.bind (EStateM.bind p f) g s = EStateM.bind p (fun a => EStateM.bind (f a) g) s
  unfold EStateM.bind
  cases p s <;> rfl

/-- What two readings give one after the other is handed on. -/
theorem Gives.bind_bind {γ : Type} {p : Reading γ} {q : Reading α} {f : α → Reading β}
    (hq : (p >>= fun _ => q).Gives P a R) (hf : (f a).Gives R c Q) :
    (p >>= fun _ => q >>= f).Gives P c Q :=
  bind_assoc_eq p (fun _ => q) f ▸ hq.bind hf

/-! ## Tokens -/

theorem finds_current (hw : Spells w kind text) :
    current.Finds ⟨w, ws, b, rs⟩ kind text ⟨w, ws, b, rs⟩ :=
  fun s h => ⟨s.token, s, rfl, h.shows hw, h⟩

theorem finds_next (hw : Spells w kind text) :
    next.Finds ⟨v, w :: ws, b, rs⟩ kind text ⟨w, ws, b, rs⟩ :=
  fun s h => ⟨s.next.token, s.next, rfl, (h.next hw).shows hw, h.next hw⟩

theorem finds_advance (hw : Spells w kind text) :
    advance.Finds ⟨v, w :: ws, b, rs⟩ kind text ⟨w, ws, b, rs⟩ := by
  intro s h
  have hshows := (h.next hw).shows hw
  refine ⟨s.next.token, s.next, ?_, hshows, h.next hw⟩
  rw [advance, if_neg (hshows.kind_ne hw.ne_eof)]

theorem finds_check (ht : t.Shows kind text) (P : Place) :
    (check t kind expected).Finds P kind text P := by
  intro s h
  refine ⟨t, s, ?_, ht, h⟩
  rw [check, if_pos ⟨ht.kind_eq, by rw [ht.closed]; rfl⟩]
  rfl

theorem finds_expect (hw : Spells w kind text) :
    (expect kind expected).Finds ⟨v, w :: ws, b, rs⟩ kind text ⟨w, ws, b, rs⟩ := by
  intro s h
  have hfinds : (check s.next.token kind expected).Finds ⟨w, ws, b, rs⟩ kind text ⟨w, ws, b, rs⟩ :=
    finds_check ((h.next hw).shows hw) _
  obtain ⟨t, u, hcheck, ht, hu⟩ := hfinds (h.next hw)
  exact ⟨t, u, bind_eq_ok.2 ⟨s.next.token, s.next, rfl, hcheck⟩, ht, hu⟩

theorem finds_peek (hw : Spells w kind text) :
    peek.Finds ⟨v, w :: ws, b, rs⟩ kind text ⟨v, w :: ws, b, rs⟩ :=
  fun s h => ⟨s.next.token, s, peek_eq s, (h.next hw).shows hw, h⟩

/-- Where only the first of the two tokens that follow is on the line. -/
theorem gives_peekTwo_bind_first {f : Token × Token → Reading β} (hv : Spells v kind text)
    (hf : ∀ t t' : Token, t.Shows kind text → (f (t, t')).Gives ⟨u, v :: ws, b, rs⟩ c Q) :
    (peekTwo >>= f).Gives ⟨u, v :: ws, b, rs⟩ c Q := by
  intro s h
  obtain ⟨u, hu, hQ⟩ := hf _ s.next.next.token ((h.next hv).shows hv) h
  exact ⟨u, by rw [peekTwo_bind, hu], hQ⟩

theorem gives_peekTwo_bind {f : Token × Token → Reading β} (hv : Spells v kind text)
    (hw : Spells w kind' text')
    (hf : ∀ t t' : Token, t.Shows kind text → t'.Shows kind' text' →
      (f (t, t')).Gives ⟨u, v :: w :: ws, b, rs⟩ c Q) :
    (peekTwo >>= f).Gives ⟨u, v :: w :: ws, b, rs⟩ c Q := by
  intro s h
  have hnext := h.next hv
  obtain ⟨u, hu, hQ⟩ := hf _ _ (hnext.shows hv) ((hnext.next hw).shows hw) h
  exact ⟨u, by rw [peekTwo_bind, hu], hQ⟩

theorem gives_advance_value {x : Value} (hx : Value.LegibleLeaves x.pieces)
    (hw : Spells w kind text) (hends : Value.endsValue kind = true) :
    (advance >>= fun _ => Value.read).Gives ⟨u, x.tokens ++ w :: ws, b, rs⟩ x ⟨w, ws, b, rs⟩ := by
  intro s h
  obtain ⟨e, hfaces, hmask, hskips, hread⟩ := Value.read_of_faces hx h.faces
  have he : e.next.At ⟨w, ws, b, rs⟩ := by
    have hnext := Scanner.At.of_faces hfaces (hmask.trans h.mask_eq) hw
    rwa [hskips.comments_eq, h.comments_eq] at hnext
  have hkind := (he.shows hw).kind_eq
  have hread := hread (hkind ▸ hends) (hkind ▸ hw.ne_eof)
  refine ⟨e.next, ?_, he⟩
  rw [advance_bind, if_neg, hread]
  -- at the end of input the value would be over
  intro hs
  have hzero : s.next.ValueEnds 0 :=
    ⟨by show Value.endsValue s.next.token.kind = true; rw [hs]; rfl,
      fun i hi => absurd hi (Nat.not_lt_zero i)⟩
  rw [Value.read_eq hzero, if_neg fun hopen => Nat.lt_irrefl 0 hopen.1] at hread
  obtain ⟨-, hsame⟩ := EStateM.Result.ok.inj hread
  have hsame : s.next = e.next := hsame
  rw [← hsame, hs] at hkind
  exact hw.ne_eof hkind.symm

/-! ## Loops -/

section Loop

variable {σ : Type} {step : σ → Reading (Round σ α)} {hstep : Progresses step} {state state' : σ}

theorem Gives.loop_done (h : (step state).Gives P (.done a) Q) :
    (loop step hstep state).Gives P a Q := by
  intro s hs
  obtain ⟨u, hu, hQ⟩ := h hs
  exact ⟨u, by rw [loop_eq, hu], hQ⟩

theorem Gives.loop_again (h : (step state).Gives P (.again state') R)
    (hrest : (loop step hstep state').Gives R a Q) : (loop step hstep state).Gives P a Q := by
  intro s hs
  obtain ⟨t, ht, hR⟩ := h hs
  obtain ⟨u, hu, hQ⟩ := hrest hR
  exact ⟨u, by rw [loop_eq, ht]; exact hu, hQ⟩

end Loop

/-! ## Lists -/

section Gather

variable {round : Reading (List α × Bool)} {hround : round.Consumes} {items found all : List α}

theorem progresses_gatherRound (hround : round.Consumes) : Progresses (gatherRound round) :=
  .of_consumes (consumes_gatherRound hround)

/-- The rounds of a list after earlier ones, which found `found`, the latest first. -/
def gatherFrom (round : Reading (List α × Bool)) (hround : round.Consumes) (found : List α) :
    Reading (List α) :=
  loop (gatherRound round) (progresses_gatherRound hround) found

theorem Gives.gatherFrom_done (h : round.Gives P (items, false) Q) :
    (gatherFrom round hround found).Gives P (found.reverse ++ items) Q := by
  have hstep : (gatherRound round found).Gives P (.done (items.reverse ++ found).reverse) Q :=
    h.bind (gives_pure _ _)
  rw [List.reverse_append, List.reverse_reverse] at hstep
  exact hstep.loop_done

theorem Gives.gatherFrom_again (h : round.Gives P (items, true) R)
    (hrest : (gatherFrom round hround (items.reverse ++ found)).Gives R all Q) :
    (gatherFrom round hround found).Gives P all Q := by
  have hstep : (gatherRound round found).Gives P (.again (items.reverse ++ found)) R :=
    h.bind (gives_pure _ _)
  exact hstep.loop_again hrest

theorem Gives.gather_done (hround : round.Consumes) (h : round.Gives P (items, false) Q) :
    (gather round hround).Gives P items Q := by
  have hfrom : (gatherFrom round hround []).Gives P ([].reverse ++ items) Q := h.gatherFrom_done
  exact hfrom

/-- The marks behind the items of a list, with the kind of each and whether there are more items
behind it. -/
inductive Parts (close : String) (closing : TokenKind) : String → TokenKind → Bool → Prop
  | comma : Parts close closing "," .comma true
  | close : Parts close closing close closing false

theorem Parts.spells {close mark : String} {closing kind : TokenKind} {more : Bool}
    (h : Parts close closing mark kind more) (hclose : Spells close closing close) :
    Spells mark kind mark := by
  cases h with
  | comma => exact spells_comma
  | close => exact hclose

/-- Behind the first item of a list stands the mark that closes it, or a comma. -/
theorem exists_listed_cons (x : List String) (xs : List (List String)) (close : String)
    (ws : List String) : ∃ mark words, listed (x :: xs) ++ close :: ws = x ++ mark :: words ∧
      (mark = close ∧ xs = [] ∨ mark = "," ∧ xs ≠ []) := by
  cases xs with
  | nil => exact ⟨close, ws, by rw [listed, List.intercalate_singleton], Or.inl ⟨rfl, rfl⟩⟩
  | cons y ys =>
    refine ⟨",", listed (y :: ys) ++ close :: ws, ?_, Or.inr ⟨rfl, List.cons_ne_nil y ys⟩⟩
    rw [listed, List.intercalate_cons_cons, List.append_assoc, List.append_assoc]
    rfl

/-- **A list is read item by item**, up to the mark that closes it.  Each item may pass some
comments. -/
theorem gives_gather_listed (hround : round.Consumes) {words note : α → List String}
    {close : String} {closing : TokenKind} {xs : List α} (hne : xs ≠ [])
    (hitem : ∀ x ∈ xs, ∀ {mark kind more}, Parts close closing mark kind more → ∀ v ws rs,
      round.Gives ⟨v, words x ++ mark :: ws, b, rs⟩ ([x], more) ⟨mark, ws, b, rs ++ note x⟩) :
    (gather round hround).Gives ⟨v, listed (xs.map words) ++ close :: ws, b, rs⟩ xs
      ⟨close, ws, b, rs ++ xs.flatMap note⟩ := by
  suffices h : ∀ found v rs, (gatherFrom round hround found).Gives
      ⟨v, listed (xs.map words) ++ close :: ws, b, rs⟩ (found.reverse ++ xs)
      ⟨close, ws, b, rs ++ xs.flatMap note⟩ from h [] v rs
  induction xs with
  | nil => exact absurd rfl hne
  | cons x xs ih =>
    intro found v rs
    cases xs with
    | nil =>
      rw [List.map_singleton, listed, List.intercalate_singleton, List.flatMap_singleton]
      exact (hitem x List.mem_cons_self .close v ws rs).gatherFrom_done
    | cons y ys =>
      rw [List.map_cons, List.map_cons, listed, List.intercalate_cons_cons, List.append_assoc,
        List.append_assoc, List.singleton_append, List.flatMap_cons, ← List.append_assoc rs]
      have hrest := ih (List.cons_ne_nil y ys) (fun z hz => hitem z (List.mem_cons_of_mem x hz))
        (x :: found) "," (rs ++ note x)
      rw [List.reverse_cons, List.append_assoc, List.singleton_append] at hrest
      exact (hitem x List.mem_cons_self .comma v _ rs).gatherFrom_again hrest

/-- A list whose items pass no comments. -/
theorem gives_gather (hround : round.Consumes) {words : α → List String} {close : String}
    {closing : TokenKind} {xs : List α} (hne : xs ≠ [])
    (hitem : ∀ x ∈ xs, ∀ {mark kind more}, Parts close closing mark kind more → ∀ v ws rs,
      round.Gives ⟨v, words x ++ mark :: ws, b, rs⟩ ([x], more) ⟨mark, ws, b, rs⟩) :
    (gather round hround).Gives ⟨v, listed (xs.map words) ++ close :: ws, b, rs⟩ xs
      ⟨close, ws, b, rs⟩ := by
  have h : (gather round hround).Gives ⟨v, listed (xs.map words) ++ close :: ws, b, rs⟩ xs
      ⟨close, ws, b, rs ++ xs.flatMap fun _ => []⟩ :=
    gives_gather_listed hround hne fun x hx mark kind more hmark v ws rs => by
      rw [List.append_nil]
      exact hitem x hx hmark v ws rs
  rwa [List.flatMap_eq_nil_iff.2 fun _ _ => rfl, List.append_nil] at h

end Gather

end Reading

end AcsOutline
