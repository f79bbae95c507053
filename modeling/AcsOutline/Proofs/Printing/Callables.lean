import AcsOutline.Grammar.Namespace
import AcsOutline.Proofs.Printing.Aggregates

/-!
# Printed functions, scripts and heads of namespaces

The words behind the parameters of a script are printed in one order; each of them may be missing,
so that what a script goes on with is known only as far as it is some word (`Printing.Begins`).
-/

namespace AcsOutline

open Printing

/-! ## Words that may be missing -/

namespace Printing

/-- Words begin with one that spells itself. -/
def Begins (words : List String) : Prop :=
  ∃ w kind ws, words = w :: ws ∧ Spells w kind w

theorem Begins.of_spells {w : String} {kind : TokenKind} (h : Spells w kind w)
    (ws : List String) : Begins (w :: ws) :=
  ⟨w, kind, ws, rfl, h⟩

theorem Begins.flag {word : String} {kind : TokenKind} {words : List String}
    (hword : Spells word kind word) (b : Bool) (h : Begins words) : Begins (flag word b ++ words) := by
  cases b with
  | false => exact h
  | true => exact .of_spells hword words

theorem isName_net : IsName "net" :=
  ⟨.of_check (by decide), by decide⟩

theorem isName_clientside : IsName "clientside" :=
  ⟨.of_check (by decide), by decide⟩

end Printing

namespace Grammar

open Reading

variable {kind : TokenKind} {text u v w : String} {us ws : List String} {b : List Char}
  {rs : List String} {more isPrivate : Bool}

/-! ## Functions -/

theorem gives_functionHead (hwords : flag "private" isPrivate ++ "function" :: w :: ws = u :: us)
    (hw : Spells w kind text) :
    functionHead.Gives ⟨u, us, b, rs⟩ (some isPrivate) ⟨w, ws, b, rs⟩ := by
  intro s h
  have hspells := spells_keyword .functionWord
  obtain ⟨hprivate, hat⟩ := h.unmodified hwords hspells (by decide)
  obtain ⟨t, u, hadvance, -, hu⟩ := finds_advance hw hat
  refine ⟨u, ?_, hu⟩
  rw [functionHead_eq, if_pos (hat.shows hspells).kind_eq, hadvance, hprivate]

theorem gives_parameterDefault {value : Option String} (hvalue : ∀ x ∈ value, IsLiteral x)
    (hw : Spells w kind text) (hne : kind ≠ .equals) :
    parameterDefault.Gives ⟨v, marked "=" value ++ w :: ws, b, rs⟩ value ⟨w, ws, b, rs⟩ := by
  cases value with
  | none =>
    refine (finds_next hw).bind fun t ht => ?_
    rw [if_neg (ht.kind_ne hne)]
    exact gives_pure _ _
  | some x =>
    obtain ⟨k, tx, hx, hliteral, -⟩ := (hvalue x rfl).spells
    refine (finds_next spells_equals).bind fun t ht => ?_
    rw [if_pos ht.kind_eq]
    refine (finds_advance hx).bind fun t ht => (finds_next hw).bind fun _ _ => ?_
    rw [ht.literal_eq, hliteral]
    exact gives_pure _ _

theorem gives_functionParameter {p : Parameter} (hp : p.IsNormal)
    (hmark : Parts ")" .rparen w kind more) :
    (functionParameter p.type).Gives ⟨v, p.name :: marked "=" p.default ++ w :: ws, b, rs⟩ p
      ⟨w, ws, b, rs⟩ := by
  refine (finds_expect hp.name.spells).bind fun t ht => ?_
  rw [ht.text_eq]
  exact (gives_parameterDefault hp.default (hmark.spells spells_rparen)
    (by cases hmark <;> decide)).bind (gives_pure _ _)

theorem gives_takeClientside {isClientside : Bool} (hw : Spells w kind text)
    (hne : kind ≠ .symbol) :
    takeClientside.Gives ⟨v, flag "clientside" isClientside ++ w :: ws, b, rs⟩ isClientside
      ⟨w, ws, b, rs⟩ := by
  cases isClientside with
  | false =>
    refine (finds_next hw).bind fun t ht => ?_
    rw [if_neg (by rw [ht.isWord_of_ne hne]; decide)]
    exact gives_pure _ _
  | true =>
    refine (finds_next isName_clientside.spells).bind fun t ht => ?_
    rw [if_pos ht.isWord]
    exact (finds_next hw).bind fun _ _ => gives_pure _ _

theorem gives_functionParameters {f : FunctionDecl} (hf : f.IsNormal) :
    (parameters functionParameter within_functionParameter).Gives
      ⟨"(", listed (f.parameters.map Parameter.words) ++ ")" :: ws, b, rs⟩ f.parameters
      ⟨")", ws, b, rs⟩ :=
  gives_parameters within_functionParameter Parameter.type
    (fun p => p.name :: marked "=" p.default) (fun p hp => (hf.parameters p hp).type)
    (fun p hp => Or.inr ⟨p.name, _, rfl, (hf.parameters p hp).name⟩) (fun _ _ h => nomatch h)
    (fun p hp _ _ _ hmark _ _ => gives_functionParameter (hf.parameters p hp) hmark)

/-- The signature of a function is read, whatever is made of it and of the depth of braces. -/
theorem gives_functionSignature_bind {f : FunctionDecl} (hf : f.IsNormal) {β : Type} {c : β}
    {k : FunctionDecl × Int → Reading β} {Q : Place}
    (hk : ∀ depth, (k (f, depth)).Gives ⟨";", [], b, rs⟩ c Q) :
    (functionSignature f.isPrivate >>= k).Gives ⟨f.returnType, f.name :: "(" ::
      (listed (f.parameters.map Parameter.words) ++
        ")" :: (flag "clientside" f.isClientside ++ [";"])), b, rs⟩ c Q := by
  rw [functionSignature]
  simp only [bind_assoc, pure_bind]
  refine (finds_current hf.returnType.spells).bind fun t ht => (finds_check ht _).bind fun type htype =>
    (finds_expect hf.name.spells).bind fun name hname =>
      (finds_expect spells_lparen).bind fun _ _ => ?_
  rw [typeText_eq hf.returnType htype, hname.text_eq]
  exact (gives_functionParameters hf).bind (gives_braceDepth fun depth =>
    (gives_takeClientside spells_semicolon (by decide)).bind (hk depth))

theorem gives_function {f : FunctionDecl} (hf : f.IsNormal) (hwords : f.words = u :: us) :
    functionDeclaration.Gives ⟨u, us, b, rs⟩ (some (.function f)) ⟨";", [], b, rs⟩ := by
  refine (gives_functionHead hwords hf.returnType.spells).bind
    (gives_functionSignature_bind hf fun depth => ?_)
  have hbody : (functionBody depth).Gives ⟨";", [], b, rs⟩ () ⟨";", [], b, rs⟩ :=
    (finds_current spells_semicolon).bind fun t ht => by
      rw [ht.kind_eq]
      exact gives_pure _ _
  exact hbody.bind (gives_pure _ _)

/-! ## Scripts -/

theorem gives_scriptParameter {p : ScriptParameter} (hp : p.IsNormal)
    (hmark : Parts ")" .rparen w kind more) :
    (scriptParameter p.type).Gives ⟨v, p.name.toList ++ w :: ws, b, rs⟩ p ⟨w, ws, b, rs⟩ :=
  (gives_takeName hp.name (hmark.spells spells_rparen) (by cases hmark <;> decide)).bind_bind
    (gives_pure _ _)

/-- What the words before the body of a script say. -/
structure Modifiers.Say (m : Modifiers) (activator : Option String) (isNet isClientside : Bool) :
    Prop where
  activator_eq : m.activator.map typeText = activator
  net_eq : m.net.isSome = isNet
  clientside_eq : m.clientside.isSome = isClientside

theorem gives_modifiersFrom (m : Modifiers) (depth : Int) :
    (modifiersFrom m depth).Gives ⟨"\x7b", ws, b, rs⟩ (m, depth) ⟨"\x7b", ws, b, rs⟩ := by
  have hround : (modifierRound (m, depth)).Gives ⟨"\x7b", ws, b, rs⟩ (.done (m, depth))
      ⟨"\x7b", ws, b, rs⟩ :=
    (finds_current spells_lbrace).bind fun t ht => by
      rw [if_pos ht.kind_eq]
      exact gives_pure _ _
  exact hround.loop_done

/-- A word takes the place of its sort. -/
theorem modifiersFrom_word {s : Scanner} {m : Modifiers} {sort : ModifierSort}
    (h : s.At ⟨v, us, b, rs⟩) (hv : Spells v .symbol v)
    (hsort : ModifierSort.ofToken s.token = sort) (hfree : m.get? sort = none) (depth : Int) :
    modifiersFrom m depth s = modifiersFrom (m.set s.token sort) s.braces s.next := by
  have hkind := (h.shows hv).kind_eq
  have hadd : m.add s.token = .ok (m.set s.token sort) := by
    rw [Modifiers.add, hsort, hfree]
  have hround : modifierRound (m, depth) s =
      .ok (.again (m.set s.token sort, s.braces)) s.next := by
    rw [modifierRound, current_bind, if_neg (by rw [hkind]; decide), if_pos hkind, hadd]
    rfl
  rw [modifiersFrom, loop_eq, hround]
  rfl

variable {s : Scanner} {m : Modifiers} {activator : Option String} {isNet isClientside : Bool}
  {depth : Int}

theorem exists_modifiersFrom_clientside (hm : m.Say activator isNet false)
    (hwords : flag "clientside" isClientside ++ "\x7b" :: ws = u :: us) (h : s.At ⟨u, us, b, rs⟩) :
    ∃ m' depth' t, modifiersFrom m depth s = .ok (m', depth') t ∧ m'.Say activator isNet isClientside ∧
      t.At ⟨"\x7b", ws, b, rs⟩ := by
  cases isClientside with
  | false =>
    obtain ⟨rfl, rfl⟩ := List.cons.inj hwords
    obtain ⟨t, ht, hat⟩ := gives_modifiersFrom m depth h
    exact ⟨m, depth, t, ht, hm, hat⟩
  | true =>
    obtain ⟨rfl, rfl⟩ := List.cons.inj hwords
    have hshows := h.shows isName_clientside.spells
    have hsort : ModifierSort.ofToken s.token = .clientside := by
      rw [ModifierSort.ofToken, if_pos hshows.isWord]
    have hfree : m.get? .clientside = none :=
      Option.not_isSome_iff_eq_none.1 (Bool.eq_false_iff.1 hm.clientside_eq)
    obtain ⟨t, ht, hat⟩ :=
      gives_modifiersFrom (m.set s.token .clientside) s.braces (h.next spells_lbrace)
    rw [← modifiersFrom_word h isName_clientside.spells hsort hfree depth] at ht
    exact ⟨_, _, t, ht, ⟨hm.activator_eq, hm.net_eq, rfl⟩, hat⟩

theorem exists_modifiersFrom_net (hm : m.Say activator false false)
    (hwords : flag "net" isNet ++ (flag "clientside" isClientside ++ "\x7b" :: ws) = u :: us)
    (h : s.At ⟨u, us, b, rs⟩) :
    ∃ m' depth' t, modifiersFrom m depth s = .ok (m', depth') t ∧ m'.Say activator isNet isClientside ∧
      t.At ⟨"\x7b", ws, b, rs⟩ := by
  cases isNet with
  | false => exact exists_modifiersFrom_clientside hm hwords h
  | true =>
    obtain ⟨w, k, later, hlater, hw⟩ :=
      (Begins.of_spells spells_lbrace ws).flag isName_clientside.spells isClientside
    obtain ⟨rfl, rfl⟩ := List.cons.inj (hwords.symm.trans (congrArg ("net" :: ·) hlater))
    have hshows := h.shows isName_net.spells
    have hsort : ModifierSort.ofToken s.token = .net := by
      rw [ModifierSort.ofToken, if_neg, if_pos hshows.isWord]
      rw [hshows.isWord_eq_false ⟨isName_net, by decide⟩ (by decide) (by decide)]
      decide
    have hfree : m.get? .net = none :=
      Option.not_isSome_iff_eq_none.1 (Bool.eq_false_iff.1 hm.net_eq)
    rw [modifiersFrom_word h isName_net.spells hsort hfree]
    exact exists_modifiersFrom_clientside ⟨hm.activator_eq, rfl, hm.clientside_eq⟩ hlater (h.next hw)

/-- **The words before the body of a script are read**, each in the place of its sort. -/
theorem exists_modifiers
    (hactivator : ∀ a ∈ activator, IsType a ∧ a ≠ "net" ∧ a ≠ "clientside")
    (hwords : activator.toList ++ (flag "net" isNet ++
      (flag "clientside" isClientside ++ "\x7b" :: ws)) = u :: us) (h : s.At ⟨u, us, b, rs⟩) :
    ∃ m depth' t, modifiers depth s = .ok (m, depth') t ∧ m.Say activator isNet isClientside ∧
      t.At ⟨"\x7b", ws, b, rs⟩ := by
  cases activator with
  | none => exact exists_modifiersFrom_net ⟨rfl, rfl, rfl⟩ hwords h
  | some a =>
    obtain ⟨ha, hnet, hclientside⟩ := hactivator a rfl
    obtain ⟨w, k, later, hlater, hw⟩ := ((Begins.of_spells spells_lbrace ws).flag
      isName_clientside.spells isClientside).flag isName_net.spells isNet
    obtain ⟨rfl, rfl⟩ := List.cons.inj (hwords.symm.trans (congrArg (a :: ·) hlater))
    have hshows := h.shows ha.spells
    have hsort : ModifierSort.ofToken s.token = .activator := by
      rw [ModifierSort.ofToken, if_neg, if_neg]
      · rw [hshows.isWord_eq_false ha (by decide) hnet]
        decide
      · rw [hshows.isWord_eq_false ha (by decide) hclientside]
        decide
    have hword : modifiers depth s = modifiersFrom _ s.braces s.next :=
      modifiersFrom_word h ha.spells hsort rfl depth
    rw [hword]
    exact exists_modifiersFrom_net ⟨congrArg some (typeText_eq ha hshows), rfl, rfl⟩ hlater (h.next hw)

theorem exists_scriptParameters {d : ScriptDecl} (hd : d.IsNormal) (hw : Spells w kind text)
    (h : s.At ⟨v, "(" :: (listed (d.parameters.map ScriptParameter.words) ++ ")" :: w :: ws), b,
      rs⟩) :
    ∃ depth t, scriptParameters s = .ok (d.parameters, depth) t ∧ t.At ⟨w, ws, b, rs⟩ := by
  have hvoid : ∀ p : ScriptParameter, d.parameters = [p] → p.name.toList = [] →
      p.type ≠ "void" := by
    rintro ⟨type, name⟩ hone hname rfl
    obtain rfl : name = none := Option.toList_eq_nil_iff.1 hname
    exact hd.not_void hone
  have hparameters : (parameters scriptParameter within_scriptParameter).Gives
      ⟨"(", listed (d.parameters.map ScriptParameter.words) ++ ")" :: w :: ws, b, rs⟩ d.parameters
      ⟨")", w :: ws, b, rs⟩ :=
    gives_parameters within_scriptParameter ScriptParameter.type (fun p => p.name.toList)
      (fun p hp => (hd.parameters p hp).type)
      (fun p hp => by
        cases hname : p.name with
        | none => exact Or.inl rfl
        | some n => exact Or.inr ⟨n, [], rfl, (hd.parameters p hp).name n hname⟩)
      hvoid (fun p hp _ _ _ hmark _ _ => gives_scriptParameter (hd.parameters p hp) hmark)
  have hopen := (h.next spells_lparen).shows spells_lparen
  obtain ⟨t, ht, hat⟩ := hparameters (h.next spells_lparen)
  refine ⟨t.braces, t.next, ?_, hat.next hw⟩
  refine bind_eq_ok.2 ⟨s.braces, s, rfl, ?_⟩
  rw [next_bind, if_pos hopen.kind_eq]
  exact bind_eq_ok.2 ⟨d.parameters, t, ht, rfl⟩

/-- A script is read behind its number or name. -/
theorem gives_scriptTail {d : ScriptDecl} (hd : d.IsNormal) {id : Token}
    (htext : id.text = d.identifier) (hquoted : (id.kind == .string) = d.isQuoted) :
    (scriptTail id).Gives ⟨v, d.words.tail, b, rs⟩ (.script d) ⟨"\x7d", [], b, rs⟩ := by
  obtain ⟨w, k, ws, hwords, hw⟩ : Begins (d.activator.toList ++ (flag "net" d.isNet ++
      (flag "clientside" d.isClientside ++ ["\x7b", "\x7d"]))) := by
    have hflags := ((Begins.of_spells spells_lbrace ["\x7d"]).flag isName_clientside.spells
      d.isClientside).flag isName_net.spells d.isNet
    cases ha : d.activator with
    | none => exact hflags
    | some a => exact .of_spells (hd.activator a ha).1.spells _
  intro s h
  obtain ⟨depth, t, hparameters, ht⟩ : ∃ depth t, scriptParameters s = .ok (d.parameters, depth) t ∧
      t.At ⟨w, ws, b, rs⟩ := by
    refine exists_scriptParameters (v := v) hd hw ?_
    rw [← hwords]
    exact h
  obtain ⟨m, depth', u, hm, hsay, hu⟩ := exists_modifiers hd.activator hwords ht
  obtain ⟨-, rfl⟩ := depth_modifiers (depth_scriptParameters hparameters) hm
  obtain ⟨v, hskip, hv⟩ := gives_skipTo hu "script"
  refine ⟨v, bind_eq_ok.2 ⟨_, t, hparameters, bind_eq_ok.2 ⟨_, u, hm, bind_eq_ok.2 ⟨_, u, rfl,
    bind_eq_ok.2 ⟨(), v, hskip, ?_⟩⟩⟩⟩, hv⟩
  rw [Modifiers.script, htext, hquoted, hsay.activator_eq, hsay.clientside_eq, hsay.net_eq]
  rfl

theorem gives_script {d : ScriptDecl} (hd : d.IsNormal) :
    scriptDeclaration.Gives ⟨"script", d.words, b, rs⟩ (some (.script d)) ⟨"\x7d", [], b, rs⟩ := by
  obtain ⟨k, hk, hid, hquoted⟩ : ∃ kind,
      Spells (if d.isQuoted then quote d.identifier else d.identifier) kind d.identifier ∧
        (kind == .number || kind == .string || kind == .symbol) = true ∧
          (kind == .string) = d.isQuoted := by
    have hidentifier := hd.identifier
    cases hquoted : d.isQuoted with
    | true =>
      rw [hquoted] at hidentifier
      exact ⟨.string, hidentifier.spells, rfl, rfl⟩
    | false =>
      rw [hquoted] at hidentifier
      obtain ⟨k, hk, rfl | rfl⟩ := IsSize.spells hidentifier
      · exact ⟨_, hk, rfl, rfl⟩
      · exact ⟨_, hk, rfl, rfl⟩
  refine (finds_current (spells_keyword .scriptWord)).bind fun t ht => ?_
  rw [if_pos ht.kind_eq]
  refine (finds_next hk).bind fun id hid' => ?_
  have hscript : isScriptId id = true := by
    rw [isScriptId, hid'.closed, hid'.kind_eq, hid]
    rfl
  rw [if_pos hscript]
  exact (gives_scriptTail hd hid'.text_eq (by rw [hid'.kind_eq, hquoted])).map some

/-! ## Namespaces -/

theorem gives_namespaceNames {isStrict : Bool} {name : Option String}
    (hname : ∀ n ∈ name, IsName n) :
    (namespaceNames isStrict).Gives ⟨v, name.toList ++ "\x7b" :: ws, b, rs⟩
      ⟨[⟨isStrict, name⟩], none⟩ ⟨"\x7b", ws, b, rs⟩ := by
  cases name with
  | none =>
    refine (finds_peek spells_lbrace).bind fun t ht => ?_
    rw [if_pos ht.kind_eq]
    exact (finds_next spells_lbrace).bind fun _ _ => gives_pure _ _
  | some n =>
    have hn := (hname n rfl).spells
    refine (finds_peek hn).bind fun t ht => ?_
    rw [if_neg (ht.kind_ne (by decide))]
    have hround : (namespaceRound isStrict []).Gives ⟨v, n :: "\x7b" :: ws, b, rs⟩
        (.done ⟨[⟨isStrict, some n⟩], none⟩) ⟨"\x7b", ws, b, rs⟩ := by
      refine (finds_next hn).bind fun t ht => ?_
      rw [if_pos ht.kind_eq]
      refine (finds_next spells_lbrace).bind fun after hafter => ?_
      rw [if_neg (hafter.kind_ne (by decide)), if_pos hafter.kind_eq, ht.text_eq]
      exact gives_pure _ _
    exact hround.loop_done

/-- The line that opens a namespace is read. -/
theorem gives_namespaceHead {key : NamespaceKey} (hname : ∀ n ∈ key.name, IsName n)
    (hwords : key.words = u :: us) :
    namespaceHead.Gives ⟨u, us, b, rs⟩ (some ⟨[key], none⟩) ⟨"\x7b", [], b, rs⟩ := by
  obtain ⟨isStrict, name⟩ := key
  cases isStrict with
  | false =>
    obtain ⟨rfl, rfl⟩ := List.cons.inj hwords
    refine (finds_current (spells_keyword .namespaceWord)).bind fun t ht => ?_
    rw [ht.kind_eq]
    exact (gives_namespaceNames hname).map some
  | true =>
    obtain ⟨rfl, rfl⟩ := List.cons.inj hwords
    refine (finds_current (spells_keyword .strictWord)).bind fun t ht => ?_
    rw [ht.kind_eq]
    exact (finds_expect (spells_keyword .namespaceWord)).bind fun _ _ =>
      (gives_namespaceNames hname).map some

end Grammar

end AcsOutline
