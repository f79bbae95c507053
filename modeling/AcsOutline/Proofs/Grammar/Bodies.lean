import AcsOutline.Proofs.Grammar.Blocks
import AcsOutline.Proofs.Scanner.Sites

/-!
# Bodies

Functions and scripts have bodies, arrays have initialisers in braces, and all of them are skipped.
Whatever was read before the opening brace, a body ends at the brace that closes it, and the depth
of braces is there what it was before the opening one; a body that is not closed is a fault, which
points at its opening brace (`body_ends`).  Of an initialiser the text is kept, from the one brace
to the other.
-/

namespace AcsOutline

/-- A text is what stands in a source from one token to another one, and it is in braces. -/
def SpansBlock (source : String) (opening closing : Token) (text : String) : Prop :=
  ∃ before inner after, source.toList = before ++ text.toList ++ after ∧
    text.toList = '{' :: (inner ++ ['}']) ∧ opening.span.start = Text.byteLength before ∧
      closing.span.stop = Text.byteLength (before ++ text.toList)

namespace Scanner

variable {s t : Scanner} {n : Nat}

/-- A brace is closed by the token with number `n` behind it in the right way: that is a closing
brace, the braces in between are balanced, and the braces are then as deep as before. -/
structure Closed (s : Scanner) (n : Nat) : Prop where
  kind_eq : (s.ahead n).token.kind = .rbrace
  balanced : (s.next.run (n - 1)).countP (·.kind = .rbrace) =
    (s.next.run (n - 1)).countP (·.kind = .lbrace)
  nested : ∀ m < n, (s.next.run m).countP (·.kind = .rbrace) ≤
    (s.next.run m).countP (·.kind = .lbrace)
  depth_eq : (s.ahead n).braces = s.bracesBefore

theorem ClosesAt.closed (h : s.ClosesAt n) (hs : s.token.kind = .lbrace) : s.Closed n := by
  have hcount := s.braces_ahead
  constructor
  · exact h.kind_eq
  · obtain ⟨m, rfl⟩ := Nat.exists_eq_add_one.2 h.pos
    have hclose : braceStep (s.ahead (m + 1)).token.kind = -1 := by
      rw [h.kind_eq]
      rfl
    have hbraces := h.braces_eq
    have hlast := hcount m
    rw [ahead_succ] at hclose hbraces
    rw [braces_next, hclose] at hbraces
    show (s.next.run m).countP _ = (s.next.run m).countP _
    omega
  · intro m hm
    have hinner := h.le_braces hm
    have hhere := hcount m
    omega
  · exact h.bracesBefore_eq hs

/-! ## The text of a block -/

theorem Sited.ahead {source : List Char} (h : s.Sited source) (n : Nat) :
    (s.ahead n).Sited source := by
  induction n with
  | zero => exact h
  | succ n ih =>
    rw [ahead_succ]
    exact ih.next

/-- A punctuation character is read alone. -/
theorem rest_skipTrivia_of_mem {d : Char} (h : (d, s.next.token.kind) ∈ Lexeme.punctuation) :
    s.skipTrivia.rest = d :: s.next.rest := by
  have hne : s.next.token.kind ≠ .eof := Lexeme.kind_ne_eof_of_mem h
  have hread := Lexeme.read_append s.skipTrivia.rest
  change (d, (Lexeme.read s.skipTrivia.rest).1.kind) ∈ _ at h
  change (Lexeme.read s.skipTrivia.rest).1.kind ≠ _ at hne
  show s.skipTrivia.rest = d :: (Lexeme.read s.skipTrivia.rest).2
  generalize s.skipTrivia.rest = cs at h hne hread ⊢
  cases cs with
  | nil => exact absurd rfl hne
  | cons c cs =>
    have hnul : c ≠ '\x00' := by
      rintro rfl
      exact hne rfl
    rw [Lexeme.read_cons hnul] at h hread ⊢
    obtain ⟨rfl, hlength⟩ := Lexeme.extent_eq_of_mem h
    rw [hlength]
    rfl

/-- **What stands between two braces** of a source is found at their places. -/
theorem Sited.spansBlock {source : String} (hs : s.Sited source.toList)
    (hopen : s.next.token.kind = .lbrace) (hclose : (s.next.ahead (n + 1)).token.kind = .rbrace) :
    SpansBlock source s.next.token (s.next.ahead (n + 1)).token
      (String.ofList (Text.slice source.toList s.next.token.span.start
        (s.next.ahead (n + 1)).token.span.stop)) := by
  let t := s.next.ahead n
  have hlast : s.next.ahead (n + 1) = t.next := ahead_succ _ n
  rw [hlast] at hclose ⊢
  have hopening : s.skipTrivia.rest = '{' :: s.next.rest :=
    rest_skipTrivia_of_mem (by rw [hopen]; decide)
  have hclosing : t.skipTrivia.rest = '}' :: t.next.rest :=
    rest_skipTrivia_of_mem (by rw [hclose]; decide)
  -- the closing brace stands somewhere behind the opening one
  obtain ⟨inner, hinner⟩ := (rest_skipTrivia_suffix t).trans (rest_ahead_suffix s.next n)
  obtain ⟨before, hbefore, hstart, -⟩ := hs.counted.skipTrivia
  have hsource : s.skipTrivia.source = source.toList :=
    s.follows_skipTrivia.source_eq.trans hs.source_eq
  have hwhole : source.toList = before ++ ('{' :: (inner ++ ['}'])) ++ t.next.rest := by
    rw [← hsource, hbefore, hopening, ← hinner, hclosing]
    simp
  have hsited : t.next.Sited source.toList := (hs.next.ahead n).next
  obtain ⟨upto, hupto, hstop, -⟩ := hsited.counted
  have hall : upto = before ++ ('{' :: (inner ++ ['}'])) := by
    rw [hsited.source_eq, hwhole] at hupto
    exact (List.append_cancel_right hupto).symm
  have hstart : s.next.token.span.start = Text.byteLength before := hstart.symm
  have hstop : t.next.token.span.stop = Text.byteLength (before ++ ('{' :: (inner ++ ['}']))) := by
    rw [stop_next, ← hstop, hall]
  have hslice : Text.slice source.toList s.next.token.span.start t.next.token.span.stop =
      '{' :: (inner ++ ['}']) := by
    rw [hstart, hstop, hwhole, Text.slice_append]
  refine ⟨before, inner, t.next.rest, ?_, ?_, hstart, ?_⟩
  · rw [hslice, String.toList_ofList]
    exact hwhole
  · rw [hslice, String.toList_ofList]
  · rw [hslice, String.toList_ofList]
    exact hstop

end Scanner

namespace Grammar

open Reading

variable {α : Type} {source what : String} {s o : Scanner} {p : Reading α}
  {keeps : α → Scanner → Prop}

/-- What is read from `s` on is `p`, and at `o` stands the opening brace of its body, whatever was
read before it.  What is kept when the body ends at some place is told by `keeps`. -/
inductive AtBody (source : String) (s o : Scanner) :
    {α : Type} → String → Reading α → (α → Scanner → Prop) → Prop where
  | function {isPrivate : Bool} {start : Scanner} {f : FunctionDecl} {depth : Int}
      (hhead : functionHead s = .ok (some isPrivate) start)
      (hsignature : functionSignature isPrivate start = .ok (f, depth) o)
      (hopen : o.token.kind = .lbrace) :
      AtBody source s o "function" functionDeclaration fun d _ => d = some (.function f)
  | script {ps : List ScriptParameter} {m : Modifiers} {depth depth' : Int} {start : Scanner}
      (hword : s.token.kind = .keyword .scriptWord) (hid : isScriptId s.next.token = true)
      (hparameters : scriptParameters s.next = .ok (ps, depth) start)
      (hmodifiers : modifiers depth start = .ok (m, depth') o) :
      AtBody source s o "script" scriptDeclaration fun d _ =>
        d = some (.script (m.script s.next.token ps))
  | array (hopen : s.next.token.kind = .lbrace) (ho : o = s.next) :
      AtBody source s o "array initializer" arrayInitializer fun text t =>
        SpansBlock source o.token t.token text

/-- How the reading of a body ends, whose opening brace is the current token of `o`. -/
structure EndsBody (o : Scanner) (what : String) (keeps : α → Scanner → Prop)
    (r : Reading.Result α) : Prop where
  succeeds_iff : (∃ a t, r = .ok a t) ↔ ∃ n, Token.CloseOne (o.next.run n)
  closed : ∀ n, o.ClosesAt n →
    o.Closed n ∧ ∃ a, keeps a (o.ahead n) ∧ r = .ok a (o.ahead n)
  unclosed : (∀ n, ¬Token.CloseOne (o.next.run n)) → ∃ fault t, r = .error fault t ∧
    t.token.kind = .eof ∧ fault.Unclosed what o.token.span

/-- A body is skipped, and then it is known what is kept. -/
theorem endsBody_of_skipTo {rest : Unit → Reading α} {r : Reading.Result α}
    (hopen : o.token.kind = .lbrace)
    (hr : r = (skipTo o.bracesBefore what o.token.span >>= rest) o)
    (hrest : ∀ n, o.ClosesAt n →
      ∃ a, keeps a (o.ahead n) ∧ rest () (o.ahead n) = .ok a (o.ahead n)) :
    EndsBody o what keeps r := by
  obtain ⟨hcloses, hnever⟩ := skipTo_body what o.token.span hopen
  have hclosed : ∀ n, o.ClosesAt n → ∃ a, keeps a (o.ahead n) ∧ r = .ok a (o.ahead n) := by
    intro n hn
    obtain ⟨a, hkeeps, ha⟩ := hrest n hn
    refine ⟨a, hkeeps, ?_⟩
    rw [hr, bind_of_ok (hcloses n hn), ha]
  have hopened : (∀ n, ¬Token.CloseOne (o.next.run n)) →
      ∃ t, r = .error (.openBody what o.token.span) t ∧ t.token.kind = .eof := by
    intro h
    obtain ⟨n, heof, hskip⟩ := hnever h
    refine ⟨o.ahead (n + 1), ?_, heof⟩
    rw [hr, bind_of_error hskip]
  constructor
  · constructor
    · rintro ⟨a, t, hok⟩
      by_contra hnone
      obtain ⟨u, herror, -⟩ := hopened fun n hn => hnone ⟨n, hn⟩
      rw [hok] at herror
      cases herror
    · intro h
      obtain ⟨n, hn⟩ := Scanner.exists_closesAt h
      obtain ⟨a, -, ha⟩ := hclosed n hn
      exact ⟨a, _, ha⟩
  · exact fun n hn => ⟨hn.closed hopen, hclosed n hn⟩
  · intro h
    obtain ⟨t, herror, heof⟩ := hopened h
    exact ⟨_, t, herror, heof, Fault.unclosed_openBody what o.token.span⟩

theorem functionDeclaration_at_body {isPrivate : Bool} {start : Scanner} {f : FunctionDecl}
    {depth : Int} (hhead : functionHead s = .ok (some isPrivate) start)
    (hsignature : functionSignature isPrivate start = .ok (f, depth) o)
    (hopen : o.token.kind = .lbrace) :
    functionDeclaration s =
      (skipTo o.bracesBefore "function" o.token.span >>= fun _ => pure (some (.function f))) o := by
  obtain rfl := depth_functionSignature hsignature
  rw [functionDeclaration, bind_of_ok hhead]
  show (functionSignature isPrivate >>= _) start = _
  rw [bind_of_ok hsignature]
  have hbody : functionBody o.bracesBefore o =
      skipTo o.bracesBefore "function" o.token.span o := by
    rw [functionBody, current_bind, hopen]
  exact bind_congr_at hbody _

/-- What a script goes on with behind its parameters. -/
theorem scriptDeclaration_after_parameters {ps : List ScriptParameter} {depth : Int}
    {start : Scanner} (hword : s.token.kind = .keyword .scriptWord)
    (hid : isScriptId s.next.token = true)
    (hparameters : scriptParameters s.next = .ok (ps, depth) start) :
    scriptDeclaration s = (modifiers depth >>= fun r => current >>= fun opening =>
      skipTo r.2 "script" opening.span >>= fun _ =>
        pure (some (.script (r.1.script s.next.token ps)))) start := by
  rw [scriptDeclaration, current_bind, if_pos hword, next_bind, if_pos hid, ← bind_pure_comp,
    scriptTail, bind_assoc, bind_of_ok hparameters]
  show ((modifiers depth >>= _) >>= _) start = _
  simp only [bind_assoc, pure_bind]

theorem scriptDeclaration_at_body {ps : List ScriptParameter} {m : Modifiers}
    {depth depth' : Int} {start : Scanner} (hword : s.token.kind = .keyword .scriptWord)
    (hid : isScriptId s.next.token = true)
    (hparameters : scriptParameters s.next = .ok (ps, depth) start)
    (hmodifiers : modifiers depth start = .ok (m, depth') o) :
    scriptDeclaration s = (skipTo o.bracesBefore "script" o.token.span >>= fun _ =>
      pure (some (.script (m.script s.next.token ps)))) o := by
  obtain ⟨-, rfl⟩ := depth_modifiers (depth_scriptParameters hparameters) hmodifiers
  rw [scriptDeclaration_after_parameters hword hid hparameters, bind_of_ok hmodifiers, current_bind]

/-- **Bodies end at their closing brace.**  This holds of each scanner that reads a source, however
deep the braces are and whatever stands between the start of the declaration and its body. -/
theorem body_ends (hs : (Scanner.ofString source).Reads s)
    (h : AtBody source s o what p keeps) : EndsBody o what keeps (p s) := by
  cases h with
  | function hhead hsignature hopen =>
    refine endsBody_of_skipTo hopen (functionDeclaration_at_body hhead hsignature hopen) ?_
    exact fun n _ => ⟨_, rfl, rfl⟩
  | script hword hid hparameters hmodifiers =>
    obtain ⟨hopen, -⟩ := depth_modifiers (depth_scriptParameters hparameters) hmodifiers
    refine endsBody_of_skipTo hopen
      (scriptDeclaration_at_body hword hid hparameters hmodifiers) ?_
    exact fun n _ => ⟨_, rfl, rfl⟩
  | array hopen ho =>
    subst ho
    have hsited : s.Sited source.toList := hs.sited (Scanner.sited_ofList _)
    refine endsBody_of_skipTo hopen (arrayInitializer_at_body hopen) fun n hn => ?_
    obtain ⟨m, rfl⟩ := Nat.exists_eq_add_one.2 hn.pos
    refine ⟨_, hsited.spansBlock hopen hn.kind_eq, ?_⟩
    rw [current_bind, sourceText, (hsited.next.ahead (m + 1)).source_eq]

/-- Braces in strings and in comments do not count, inner braces are passed, and a brace that
stands for the default of a parameter has made the braces deeper before the body. -/
theorem body_ends_hidden_braces :
    (let s := (Scanner.ofString "int f(int a = \x7b) \x7b if (a) \x7b /* \x7d */ \x7d \x7d").next
      ∃ d, functionDeclaration s = .ok d (s.ahead 15)) ∧
    (let s := (Scanner.ofString "script 1 (int a) net \x7b say(\"\x7d\"); \x7d").next
      ∃ d, scriptDeclaration s = .ok d (s.ahead 13)) ∧
    (let s := (Scanner.ofString "= \x7b \x7b1\x7d, // \x7d\n \"\x7d\" \x7d;").next
      ∃ text, arrayInitializer s = .ok text (s.ahead 7) ∧
        SpansBlock "= \x7b \x7b1\x7d, // \x7d\n \"\x7d\" \x7d;" s.next.token
          (s.ahead 7).token text) := by
  refine ⟨?_, ?_, ?_⟩
  · intro s
    have hhead : functionHead s = .ok (some false) s := by decide +kernel
    have hsignature : functionSignature false s =
        .ok (⟨false, "int", "f", [⟨"int", "a", some "\x7b"⟩], false⟩, 1) (s.ahead 8) := by
      decide +kernel
    have hcloses : (s.ahead 8).ClosesAt 7 := ⟨by decide +kernel, by decide +kernel⟩
    have hends := body_ends (.next (.refl _)) (.function hhead hsignature (by decide +kernel))
    obtain ⟨-, d, -, hd⟩ := hends.closed 7 hcloses
    exact ⟨d, hd⟩
  · intro s
    have hparameters : scriptParameters s.next = .ok ([⟨"int", some "a"⟩], 0) (s.ahead 6) := by
      decide +kernel
    have hmodifiers : modifiers 0 (s.ahead 6) =
        .ok (⟨none, none, some (s.ahead 6).token⟩, 0) (s.ahead 7) := by
      decide +kernel
    have hcloses : (s.ahead 7).ClosesAt 6 := ⟨by decide +kernel, by decide +kernel⟩
    have hends := body_ends (.next (.refl _))
      (.script (by decide +kernel) (by decide +kernel) hparameters hmodifiers)
    obtain ⟨-, d, -, hd⟩ := hends.closed 6 hcloses
    exact ⟨d, hd⟩
  · intro s
    have hcloses : s.next.ClosesAt 6 := ⟨by decide +kernel, by decide +kernel⟩
    have hopen : s.next.token.kind = .lbrace := by decide +kernel
    have hends := body_ends (.next (.refl _)) (.array hopen rfl)
    obtain ⟨-, text, htext, ht⟩ := hends.closed 6 hcloses
    exact ⟨text, ht, htext⟩

end Grammar

end AcsOutline
