import AcsOutline.Proofs.Scanner.Reached
import AcsOutline.Proofs.Value.Matching

/-!
# Values and parentheses

To read a value is to match the parentheses of its run of tokens, and nothing else
(`Value.read_matches`): a leaf is made of every other token, a closing parenthesis without a
partner is left out, and one is added for each opening parenthesis without a partner.

A `Layout` writes the leaves and the parentheses of a value as lists of some kind: as the texts
of its tokens, or as its leaves alone.  The invariant is what is written for the groups that are
open while the value is read, the outermost first (`Nest.write`): each token adds what is written
for it, and there are as many open groups as `Token.depth` counts.
-/

namespace AcsOutline

variable {β : Type}

/-- What is written for a leaf, and before and after the pieces of a group. -/
structure Layout (β : Type) where
  leaf : TokenKind → String → List β
  opening : List β
  closing : List β

namespace Layout

/-- The texts of tokens. -/
def texts : Layout String :=
  ⟨fun kind text => [kind.literal text], ["("], [")"]⟩

/-- The leaves, without the parentheses. -/
def leaves : Layout (TokenKind × String) :=
  ⟨fun kind text => [(kind, text)], [], []⟩

/-- What is written for a token. -/
def token (l : Layout β) (t : Token) : List β :=
  if t.kind = .lparen then l.opening
  else if t.kind = .rparen then l.closing
  else l.leaf t.kind t.text

theorem token_of_open (l : Layout β) {t : Token} (h : t.kind = .lparen) :
    l.token t = l.opening :=
  if_pos h

theorem token_of_close (l : Layout β) {t : Token} (h : t.kind = .rparen) :
    l.token t = l.closing := by
  have hopen : t.kind ≠ .lparen := by
    rw [h]
    decide
  rw [token, if_neg hopen, if_pos h]

theorem token_of_plain (l : Layout β) {t : Token} (hopen : t.kind ≠ .lparen)
    (hclose : t.kind ≠ .rparen) : l.token t = l.leaf t.kind t.text := by
  rw [token, if_neg hopen, if_neg hclose]

end Layout

namespace Piece

mutual

/-- What is written for a piece. -/
def write (l : Layout β) : Piece → List β
  | leaf kind text => l.leaf kind text
  | group ps => l.opening ++ writeAll l ps ++ l.closing

/-- What is written for a list of pieces. -/
def writeAll (l : Layout β) : List Piece → List β
  | [] => []
  | p :: ps => write l p ++ writeAll l ps

end

theorem writeAll_append (l : Layout β) (ps qs : List Piece) :
    writeAll l (ps ++ qs) = writeAll l ps ++ writeAll l qs := by
  induction ps with
  | nil => rfl
  | cons p ps ih => rw [List.cons_append, writeAll, writeAll, ih, List.append_assoc]

theorem writeAll_singleton (l : Layout β) (p : Piece) : writeAll l [p] = write l p := by
  rw [writeAll, writeAll, List.append_nil]

mutual

theorem tokens_eq_write (p : Piece) : p.tokens = write .texts p := by
  cases p with
  | leaf kind text => rw [tokens_leaf, write, Layout.texts]
  | group ps =>
    rw [tokens_group, write, tokensAll_eq_writeAll ps]
    rfl

/-- The tokens of pieces are written one after the other. -/
theorem tokensAll_eq_writeAll (ps : List Piece) : tokensAll ps = writeAll .texts ps := by
  cases ps with
  | nil => rw [tokensAll_nil, writeAll]
  | cons p ps => rw [tokensAll_cons, writeAll, tokens_eq_write p, tokensAll_eq_writeAll ps]

end

end Piece

namespace Value

/-- The kinds and texts of the leaves of a value, in order. -/
def leaves (v : Value) : List (TokenKind × String) :=
  Piece.writeAll .leaves v.pieces

namespace Nest

/-! ## What is written for open groups -/

/-- What is written for the groups around the innermost one, and for the parentheses that open
the groups in them. -/
def writeOuter (l : Layout β) : List (List Piece) → List β
  | [] => []
  | around :: outer => writeOuter l outer ++ Piece.writeAll l around.reverse ++ l.opening

/-- What is written for all that was read. -/
def write (l : Layout β) (n : Nest) : List β :=
  writeOuter l n.outer ++ Piece.writeAll l n.inner.reverse

theorem write_push (l : Layout β) (n : Nest) (p : Piece) :
    (n.push p).write l = n.write l ++ Piece.write l p := by
  show writeOuter l n.outer ++ Piece.writeAll l (p :: n.inner).reverse = _
  rw [List.reverse_cons, Piece.writeAll_append, Piece.writeAll_singleton, ← List.append_assoc]
  rfl

theorem write_openGroup (l : Layout β) (n : Nest) :
    n.openGroup.write l = n.write l ++ l.opening :=
  List.append_nil _

theorem write_closeGroup (l : Layout β) {n : Nest} (h : n.outer ≠ []) :
    n.closeGroup.write l = n.write l ++ l.closing := by
  obtain ⟨inner, outer⟩ := n
  cases outer with
  | nil => exact absurd rfl h
  | cons around outer =>
    show writeOuter l outer ++ Piece.writeAll l (.group inner.reverse :: around).reverse = _
    rw [List.reverse_cons, Piece.writeAll_append, Piece.writeAll_singleton, Piece.write]
    simp only [write, writeOuter, List.append_assoc]

/-- Closing every open group writes as many closing parentheses. -/
theorem writeAll_closeAll (l : Layout β) (inner : List Piece) (outer : List (List Piece)) :
    Piece.writeAll l (closeAll inner outer) =
      write l ⟨inner, outer⟩ ++ (List.replicate outer.length l.closing).flatten := by
  induction outer generalizing inner with
  | nil => exact (List.append_nil _).symm
  | cons around outer ih =>
    have hclose : write l ⟨.group inner.reverse :: around, outer⟩ =
        write l ⟨inner, around :: outer⟩ ++ l.closing :=
      write_closeGroup l (n := ⟨inner, around :: outer⟩) (List.cons_ne_nil _ _)
    rw [closeAll, ih, hclose, List.append_assoc]
    rfl

/-! ## What a token adds -/

/-- A token opens and closes groups as they are counted. -/
theorem outer_length_take (n : Nest) (t : Token) :
    (n.take t.kind t.text).outer.length = Token.depthStep n.outer.length t := by
  by_cases hopen : t.kind = .lparen
  · rw [Token.depthStep_of_open hopen, hopen, take_of_open]
    rfl
  by_cases hclose : t.kind = .rparen
  · rw [Token.depthStep_of_close hclose, hclose, take_of_close]
    obtain ⟨inner, outer⟩ := n
    cases outer <;> rfl
  · rw [Token.depthStep_of_plain hopen hclose, take_of_plain n hopen hclose]
    rfl

/-- A closing parenthesis adds nothing where no group is open. -/
theorem write_take_of_ignored (l : Layout β) {n : Nest} {t : Token} (h : t.kind = .rparen)
    (hn : n.outer.length = 0) : (n.take t.kind t.text).write l = n.write l := by
  rw [h, take_of_close]
  obtain ⟨inner, outer⟩ := n
  cases outer with
  | nil => rfl
  | cons => cases hn

/-- Every other token adds what is written for it. -/
theorem write_take (l : Layout β) {n : Nest} {t : Token}
    (h : ¬(t.kind = .rparen ∧ n.outer.length = 0)) :
    (n.take t.kind t.text).write l = n.write l ++ l.token t := by
  by_cases hopen : t.kind = .lparen
  · rw [l.token_of_open hopen, hopen, take_of_open, write_openGroup]
  by_cases hclose : t.kind = .rparen
  · have houter : n.outer ≠ [] := fun e => h ⟨hclose, congrArg List.length e⟩
    rw [l.token_of_close hclose, hclose, take_of_close, write_closeGroup l houter]
  · rw [l.token_of_plain hopen hclose, take_of_plain n hopen hclose, write_push, Piece.write]

/-- **A run of tokens** adds what is written for those that are kept, where the groups that are
open are those that earlier tokens left open. -/
theorem write_takeAll (l : Layout β) {n : Nest} {before : List Token}
    (hn : n.outer.length = Token.depth before) (ts : List Token) :
    (n.takeAll ts).write l = n.write l ++ (Token.kept before ts).flatMap l.token ∧
      (n.takeAll ts).outer.length = Token.depth (before ++ ts) := by
  induction ts generalizing n before with
  | nil =>
    rw [List.append_nil]
    exact ⟨(List.append_nil _).symm, hn⟩
  | cons t ts ih =>
    -- the token joins those before, so that the groups it leaves open are still counted
    have htake : (n.take t.kind t.text).outer.length = Token.depth (before ++ [t]) := by
      rw [outer_length_take, hn, Token.depth_snoc]
    obtain ⟨hwrite, hdepth⟩ := ih htake
    rw [List.append_assoc] at hdepth
    refine ⟨?_, hdepth⟩
    rw [show n.takeAll (t :: ts) = (n.take t.kind t.text).takeAll ts from rfl, hwrite, Token.kept]
    by_cases hkeep : t.kind = .rparen ∧ ¬Token.ClosesGroup before
    · have hnone : n.outer.length = 0 := by
        rw [hn]
        exact Nat.eq_zero_of_not_pos fun hpos => hkeep.2 ((Token.closesGroup_iff before).2 hpos)
      rw [if_pos hkeep, write_take_of_ignored l hkeep.1 hnone]
    · have hsome : ¬(t.kind = .rparen ∧ n.outer.length = 0) := by
        rintro ⟨hclose, hzero⟩
        refine hkeep ⟨hclose, fun hcloses => ?_⟩
        have hpos := (Token.closesGroup_iff before).1 hcloses
        omega
      rw [if_neg hkeep, write_take l hsome, List.flatMap_cons, List.append_assoc]

end Nest

/-! ## Reading a value -/

/-- Whether a kind is one of the two parentheses. -/
def isParenthesis (k : TokenKind) : Bool :=
  k == .lparen || k == .rparen

theorem isParenthesis_eq_false_iff (k : TokenKind) :
    isParenthesis k = false ↔ k ≠ .lparen ∧ k ≠ .rparen := by
  simp [isParenthesis]

/-- The parentheses leave nothing in the leaves. -/
theorem flatMap_kept_leaves (before ts : List Token) :
    (Token.kept before ts).flatMap Layout.leaves.token =
      (ts.filter fun t => !isParenthesis t.kind).map fun t => (t.kind, t.text) := by
  induction ts generalizing before with
  | nil => rfl
  | cons t ts ih =>
    rw [Token.kept]
    by_cases hopen : t.kind = .lparen
    · have hclose : ¬(t.kind = .rparen ∧ ¬Token.ClosesGroup before) := by
        rw [hopen]
        exact fun h => absurd h.1 (by decide)
      rw [if_neg hclose, List.flatMap_cons, Layout.token_of_open _ hopen, ih]
      simp [Layout.leaves, isParenthesis, hopen]
    by_cases hclose : t.kind = .rparen
    · have hskip : (t :: ts).filter (fun u => !isParenthesis u.kind) =
          ts.filter fun u => !isParenthesis u.kind := by
        simp [isParenthesis, hclose]
      rw [hskip]
      split
      · exact ih _
      · rw [List.flatMap_cons, Layout.token_of_close _ hclose, ih]
        rfl
    · rw [if_neg fun h => hclose h.1, List.flatMap_cons, Layout.token_of_plain _ hopen hclose, ih]
      simp [Layout.leaves, isParenthesis, hopen, hclose]

theorem mem_of_mem_kept {before ts : List Token} {t : Token} (h : t ∈ Token.kept before ts) :
    t ∈ ts := by
  induction ts generalizing before with
  | nil => exact h
  | cons u ts ih =>
    rw [Token.kept] at h
    split at h
    · exact List.mem_cons_of_mem u (ih h)
    · rcases List.mem_cons.1 h with rfl | h
      · exact List.mem_cons_self
      · exact List.mem_cons_of_mem u (ih h)

/-- A token that was read is written as its literal. -/
theorem texts_token {allowed : SkipMask → Prop} {t : Token} (h : t.ReadUnder allowed) :
    Layout.texts.token t = [t.literal] := by
  by_cases hopen : t.kind = .lparen
  · have htext : t.text = "(" := h.text_eq (d := '(') (by rw [hopen]; decide)
    rw [Layout.token_of_open _ hopen, Token.literal, hopen, htext]
    rfl
  by_cases hclose : t.kind = .rparen
  · have htext : t.text = ")" := h.text_eq (d := ')') (by rw [hclose]; decide)
    rw [Layout.token_of_close _ hclose, Token.literal, hclose, htext]
    rfl
  · exact Layout.token_of_plain _ hopen hclose

/-- **The value of a run**, as it is written. -/
theorem writeAll_ofRun (l : Layout β) (ts : List Token) :
    Piece.writeAll l (ofRun ts).pieces =
      (Token.kept [] ts).flatMap l.token ++
        (List.replicate (Token.openCount ts) l.closing).flatten := by
  have hempty : Nest.empty.outer.length = Token.depth [] := rfl
  obtain ⟨hwrite, hdepth⟩ := Nest.write_takeAll l hempty ts
  show Piece.writeAll l (Nest.closeAll _ _) = _
  rw [Nest.writeAll_closeAll, hdepth, List.nil_append, Token.depth_eq_openCount]
  exact congrArg (· ++ _) hwrite

theorem leaves_ofRun (ts : List Token) :
    (ofRun ts).leaves =
      (ts.filter fun t => !isParenthesis t.kind).map fun t => (t.kind, t.text) := by
  have hwrite := writeAll_ofRun .leaves ts
  have hclosing : (List.replicate (Token.openCount ts) Layout.leaves.closing).flatten = [] := by
    simp [Layout.leaves]
  rw [hclosing, List.append_nil, flatMap_kept_leaves] at hwrite
  exact hwrite

theorem tokens_ofRun {allowed : SkipMask → Prop} {ts : List Token}
    (h : ∀ t ∈ ts, t.ReadUnder allowed) :
    (ofRun ts).tokens =
      (Token.kept [] ts).map Token.literal ++ List.replicate (Token.openCount ts) ")" := by
  have hliteral : (Token.kept [] ts).flatMap Layout.texts.token =
      (Token.kept [] ts).map Token.literal := by
    have heach : ∀ t ∈ Token.kept [] ts, Layout.texts.token t = [t.literal] :=
      fun t ht => texts_token (h t (mem_of_mem_kept ht))
    rw [List.map_eq_flatMap, List.flatMap_def, List.map_congr_left heach, ← List.flatMap_def]
  have hclosing : (List.replicate (Token.openCount ts) Layout.texts.closing).flatten =
      List.replicate (Token.openCount ts) ")" := by
    simp [Layout.texts]
  show Piece.tokensAll (ofRun ts).pieces = _
  rw [Piece.tokensAll_eq_writeAll, writeAll_ofRun, hliteral, hclosing]

/-- **Reading a value matches parentheses.**  From every scanner that commands can reach, the
value ends at the first token that ends values.  It cannot be read only where the last token
before that one opens a group and the input ends there.  Otherwise that token becomes the current
one; the leaves are the tokens other than parentheses; and the tokens of the value are those of
the run without the closing parentheses that have no partner, and with one for each opening
parenthesis that has none. -/
theorem read_matches (source : List Char) (cs : List Command) :
    let s := ((Workbench.ofScanner (.ofList source)).after cs).scanner
    ∃ n, s.ValueEnds n ∧
      ((∃ fault t, read s = .error fault t) ↔ s.OpensBeforeEnd n) ∧
      (∀ fault t, read s = .error fault t → fault.code.text = "E001") ∧
      (¬s.OpensBeforeEnd n → ∃ v, read s = .ok v (s.ahead n) ∧
        v.leaves = ((s.run n).filter fun t => !isParenthesis t.kind).map
          (fun t => (t.kind, t.text)) ∧
        v.tokens = (Token.kept [] (s.run n)).map Token.literal ++
          List.replicate (Token.openCount (s.run n)) ")") := by
  intro s
  have hsound : Sound (fun _ => True) s.mask s.token :=
    Workbench.sound_after trivial source fun _ _ => trivial
  obtain ⟨n, hn⟩ := s.exists_valueEnds
  -- the value of the run is the only one that can be read, and there is one except here
  have hread := read_eq hn
  by_cases hopen : s.OpensBeforeEnd n
  · rw [if_pos hopen] at hread
    refine ⟨n, hn, ⟨fun _ => hopen, fun _ => ⟨_, _, hread⟩⟩, ?_, fun h => absurd hopen h⟩
    intro fault t h
    rw [hread] at h
    cases h
    rfl
  · rw [if_neg hopen] at hread
    refine ⟨n, hn, ⟨?_, fun h => absurd h hopen⟩, ?_, fun _ => ⟨ofRun (s.run n), hread, ?_, ?_⟩⟩
    · rintro ⟨fault, t, h⟩
      rw [hread] at h
      cases h
    · intro fault t h
      rw [hread] at h
      cases h
    · exact leaves_ofRun _
    · exact tokens_ofRun fun t ht => Scanner.readUnder_of_mem_run hsound ht

end Value

end AcsOutline
