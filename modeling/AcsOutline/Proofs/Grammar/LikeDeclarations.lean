import AcsOutline.Proofs.Grammar.Forms
import AcsOutline.Proofs.Grammar.LikeParts

/-!
# Declarations of like scanners

From like scanners every declaration comes to the same, but for the text of array initialisers
(`Declaration.unwritten`).  The readings without arrays give equal results.
-/

namespace AcsOutline

/-- A variable without the text of its array initialiser. -/
def Variable.unwritten : Variable → Variable
  | array name size initializer => array name size (initializer.map fun _ => "")
  | v => v

/-- A declaration without the text of its array initialisers. -/
def Declaration.unwritten : Declaration → Declaration
  | variableGroup v => variableGroup { v with items := v.items.map Variable.unwritten }
  | d => d

namespace Grammar

open Reading

variable {T : Token → Token → Prop} {S L : Scanner → Scanner → Prop}

/-! ## Heads, modifiers and scripts -/

theorem like_orDecline {α β : Type} {f : α → Reading (Option β)}
    {Q : Option β → Option β → Prop} (hnone : Q none none) (hf : ∀ a, Like T S Q (f a) (f a))
    (a : Option α) : Like T S Q (orDecline f a) (orDecline f a) := by
  cases a with
  | none => exact like_pure hnone
  | some a => exact hf a

/-- A form comes to the same where its head and what follows that do. -/
theorem like_headed {α : Type} {head : Reading (Option α)} {f : α → Reading (Option Declaration)}
    (hhead : Like T S Eq head head) (hf : ∀ a, Like T S Eq (f a) (f a)) :
    Like T S Eq (head >>= orDecline f) (head >>= orDecline f) :=
  hhead.bind fun _ _ ha => ha ▸ like_orDecline rfl hf _

/-- Like words in the same places. -/
structure Modifiers.Like (T : Token → Token → Prop) (m m' : Modifiers) : Prop where
  activator : Option.Rel (Token.Same T) m.activator m'.activator
  clientside : Option.Rel (Token.Same T) m.clientside m'.clientside
  net : Option.Rel (Token.Same T) m.net m'.net

theorem Modifiers.Like.get? {m m' : Modifiers} (h : m.Like T m') (sort : ModifierSort) :
    Option.Rel (Token.Same T) (m.get? sort) (m'.get? sort) := by
  cases sort with
  | activator => exact h.activator
  | clientside => exact h.clientside
  | net => exact h.net

theorem Modifiers.Like.set {m m' : Modifiers} (h : m.Like T m') {t t' : Token}
    (ht : Token.Same T t t') (sort : ModifierSort) : (m.set t sort).Like T (m'.set t' sort) := by
  cases sort with
  | activator => exact ⟨.some ht, h.clientside, h.net⟩
  | clientside => exact ⟨h.activator, .some ht, h.net⟩
  | net => exact ⟨h.activator, h.clientside, .some ht⟩

theorem isScriptId_eq_of_alike {t t' : Token} (h : t.Alike t') : isScriptId t = isScriptId t' := by
  rw [isScriptId, isScriptId, h.kind_eq, h.isUnclosedString_eq]

/-- Heads that open the same namespaces and, if they are not complete, end in one cause. -/
def NamespaceHead.Like (T : Token → Token → Prop) (head head' : NamespaceHead) : Prop :=
  head.keys = head'.keys ∧ Option.Rel (Fault.Like T) head.fault head'.fault

/-- Variables that are declared start with their type. -/
theorem kind_of_variablesHead {s u : Scanner} {isPrivate : Bool}
    (h : variablesHead s = .ok (some isPrivate) u) : u.token.kind = .symbol := by
  rw [variablesHead_eq] at h
  split at h
  · cases h
  · split at h
    · cases h
    next htype =>
      cases h
      exact Decidable.not_not.1 (not_or.1 htype).1

/-- Declarations that differ at most in the text of array initialisers. -/
abbrev Unwritten (d d' : Option Declaration) : Prop :=
  d.map Declaration.unwritten = d'.map Declaration.unwritten

section Walk

variable (w : Walk T S)

include w

/-! ## Enums and structs -/

theorem like_aggregateHead (word : Keyword) :
    Like T S Eq (aggregateHead word) (aggregateHead word) := by
  have hforward := forward_accessModifier.bind fun isPrivate => forward_current.bind fun t =>
    forward_ite (c := t.kind = .keyword word) (forward_pure (some isPrivate)) (forward_pure none)
  refine Like.tentatively ?_ (fun h => congrArg _ h) hforward hforward
  refine (like_accessModifier w).bind fun isPrivate _ hprivate => ?_
  subst hprivate
  exact (like_current w).bind fun t t' ht => .ite (by rw [(w.alike ht).kind_eq])
    (fun _ _ => like_pure rfl) fun _ _ => like_pure rfl

theorem like_takeUnderlying : Like T S Eq takeUnderlying takeUnderlying := by
  refine (like_current w).bind fun t t' ht => ?_
  refine .ite (by rw [(w.alike ht).kind_eq]) (fun _ _ => ?_) fun _ _ => like_pure rfl
  refine (like_expect w (by decide) _).bind fun type type' htype => ?_
  rw [typeText_eq_of_same htype]
  exact (like_next w).bind fun _ _ _ => like_pure rfl

theorem like_memberValue : Like T S Eq memberValue memberValue :=
  (like_next w).bind fun _ _ ht => .ite (by rw [(w.alike ht).kind_eq])
    (fun _ _ => (like_advance w).bind fun _ _ _ => (Value.like_read w).map fun _ _ => congrArg some)
    fun _ _ => like_pure rfl

theorem like_enumMemberTail {name name' : Token} (h : Token.Same T name name') :
    Like T S Eq (enumMemberTail name) (enumMemberTail name') := by
  refine (like_memberValue w).bind fun value _ hvalue => ?_
  subst hvalue
  refine (like_current w).bind fun after after' hafter => ?_
  rw [(w.alike hafter).kind_eq, h.2]
  split
  · exact like_pure rfl
  · exact like_pure rfl
  · exact like_unexpected w hafter _

theorem like_enumMember : Like T S Eq enumMember enumMember :=
  (like_next w).bind fun _ _ ht => .ite (by rw [(w.alike ht).kind_eq]) (fun _ _ => like_pure rfl)
    fun _ _ => (like_check w ht (by decide) _).bind fun _ _ hname => like_enumMemberTail w hname

theorem like_enumRest (isPrivate : Bool) : Like T S Eq (enumRest isPrivate) (enumRest isPrivate) := by
  refine (like_next w).bind fun _ _ _ => (like_takeName w).bind fun name _ hname => ?_
  refine (like_takeUnderlying w).bind fun underlying _ hunderlying => ?_
  refine (like_current w).bind fun t t' ht => (like_check w ht (by decide) _).bind fun _ _ _ => ?_
  refine (like_gather_eq _ (like_enumMember w)).bind fun members _ hmembers => ?_
  subst hname hunderlying hmembers
  exact (like_takeSemicolon w).bind fun _ _ _ => like_pure rfl

theorem like_instanceName : Like T S Eq instanceName instanceName := by
  refine (like_expect w (by decide) _).bind fun name name' hname => ?_
  refine (like_next w).bind fun after after' hafter => ?_
  rw [(w.alike hafter).kind_eq, hname.2]
  split
  · exact like_pure rfl
  · exact like_pure rfl
  · exact like_unexpected w hafter _

theorem like_structInstances : Like T S Eq structInstances structInstances := by
  refine like_peekTwo_bind w fun first first' second second' hfirst hsecond => ?_
  refine .ite (by rw [(w.alike hfirst).kind_eq])
    (fun _ _ => (like_advance w).bind fun _ _ _ => like_pure rfl) fun _ _ => ?_
  refine .ite (by rw [(w.alike hfirst).kind_eq, (w.alike hsecond).kind_eq]) (fun _ _ => ?_)
    fun _ _ => like_pure rfl
  exact like_gather_eq _ (like_instanceName w)

/-! ## Functions and scripts -/

theorem like_functionHead : Like T S Eq functionHead functionHead := by
  have hforward := forward_accessModifier.bind fun isPrivate => forward_current.bind fun t =>
    forward_ite (c := t.kind = .keyword .functionWord)
      (forward_advance.bind fun _ => forward_pure (some isPrivate))
      (forward_startsFunction.bind fun starts =>
        forward_ite (c := starts = true) (forward_pure (some isPrivate)) (forward_pure none))
  refine Like.tentatively ?_ (fun h => congrArg _ h) hforward hforward
  refine (like_accessModifier w).bind fun isPrivate _ hprivate => ?_
  subst hprivate
  refine (like_current w).bind fun t t' ht => .ite (by rw [(w.alike ht).kind_eq])
    (fun _ _ => (like_advance w).bind fun _ _ _ => like_pure rfl) fun _ _ => ?_
  refine (like_startsFunction w).bind fun starts _ hstarts => ?_
  subst hstarts
  exact .ite Iff.rfl (fun _ _ => like_pure rfl) fun _ _ => like_pure rfl

theorem like_takeClientside : Like T S Eq takeClientside takeClientside :=
  (like_next w).bind fun _ _ ht => .ite (by rw [(w.alike ht).isWord_eq])
    (fun _ _ => (like_next w).bind fun _ _ _ => like_pure rfl) fun _ _ => like_pure rfl

theorem like_functionBody (depth : Int) : Like T S Eq (functionBody depth) (functionBody depth) := by
  refine (like_current w).bind fun t t' ht => ?_
  rw [(w.alike ht).kind_eq]
  split
  · exact like_pure rfl
  · exact like_skipTo w depth _ ht
  · exact like_unexpected w ht _

theorem like_scriptParameter (type : String) :
    Like T S Eq (scriptParameter type) (scriptParameter type) := by
  refine (like_next w).bind fun _ _ _ => (like_takeName w).bind fun name _ hname => ?_
  subst hname
  exact like_pure rfl

theorem like_scriptParameters : Like T S Eq scriptParameters scriptParameters := by
  refine (like_braceDepth w).bind fun depth _ hdepth => ?_
  subst hdepth
  refine (like_next w).bind fun t t' ht => .ite (by rw [(w.alike ht).kind_eq]) (fun _ _ => ?_)
    fun _ _ => like_pure rfl
  refine (like_parameters w _ (like_scriptParameter w)).bind fun ps _ hps => ?_
  subst hps
  refine (like_braceDepth w).bind fun depth' _ hdepth' => ?_
  subst hdepth'
  exact (like_next w).bind fun _ _ _ => like_pure rfl

theorem ofToken_eq_of_alike {t t' : Token} (h : T t t') :
    ModifierSort.ofToken t = ModifierSort.ofToken t' := by
  rw [ModifierSort.ofToken, ModifierSort.ofToken, (w.alike h).isWord_eq, (w.alike h).isWord_eq]

theorem like_addModifier {m m' : Modifiers} (h : m.Like T m') {t t' : Token}
    (ht : Token.Same T t t') :
    Like T S (Modifiers.Like T) (settle (m.add t)) (settle (m'.add t')) := by
  have hfirst := h.get? (.ofToken t)
  rw [Modifiers.add, Modifiers.add, ← ofToken_eq_of_alike w ht.1]
  generalize m.get? (.ofToken t) = first at hfirst ⊢
  generalize m'.get? (.ofToken t) = first' at hfirst ⊢
  cases hfirst with
  | none => exact like_settle (h.set ht _)
  | some hsame => exact like_settle (.repeatedModifier hsame.1 ht.1)

/-- Like modifiers, with one depth of braces. -/
def Modifiers.LikeDeep (T : Token → Token → Prop) (x x' : Modifiers × Int) : Prop :=
  x.1.Like T x'.1 ∧ x.2 = x'.2

theorem like_modifierRound {x x' : Modifiers × Int} (h : Modifiers.LikeDeep T x x') :
    Like T S (Round.Like (Modifiers.LikeDeep T) (Modifiers.LikeDeep T)) (modifierRound x)
      (modifierRound x') := by
  refine (like_current w).bind fun t t' ht => ?_
  have hkind := (w.alike ht).kind_eq
  refine .ite (by rw [hkind]) (fun _ _ => like_pure h) fun _ _ => ?_
  refine .ite (by rw [hkind]) (fun hsymbol _ => ?_) fun _ _ => like_unexpected w ht _
  have hsame := (w.alike ht).same ht (by rw [hsymbol]; decide)
  exact (like_addModifier w h.1 hsame).bind fun _ _ hadded => (like_braceDepth w).bind
    fun _ _ hdepth => (like_next w).bind fun _ _ _ => like_pure ⟨hadded, hdepth⟩

theorem like_modifiers (depth : Int) :
    Like T S (Modifiers.LikeDeep T) (modifiers depth) (modifiers depth) :=
  like_loop _ _ (fun _ _ h => like_modifierRound w h) ⟨⟨.none, .none, .none⟩, rfl⟩

theorem script_eq_of_like {m m' : Modifiers} (hm : m.Like T m') {id id' : Token}
    (h : Token.Same T id id') (ps : List ScriptParameter) : m.script id ps = m'.script id' ps := by
  obtain ⟨activator, clientside, net⟩ := m
  obtain ⟨activator', clientside', net'⟩ := m'
  obtain ⟨hactivator, hclientside, hnet⟩ := hm
  have htype : activator.map typeText = activator'.map typeText := by
    cases hactivator with
    | none => rfl
    | some hsame => exact congrArg some (typeText_eq_of_same hsame)
  have hflag : clientside.isSome = clientside'.isSome := by cases hclientside <;> rfl
  have hflag' : net.isSome = net'.isSome := by cases hnet <;> rfl
  simp only [Modifiers.script, h.2, (w.alike h.1).kind_eq, htype, hflag, hflag']

theorem like_scriptTail {id id' : Token} (h : Token.Same T id id') :
    Like T S Eq (scriptTail id) (scriptTail id') := by
  refine (like_scriptParameters w).bind fun ⟨ps, depth⟩ _ hps => ?_
  subst hps
  refine (like_modifiers w depth).bind fun ⟨m, depth'⟩ ⟨m', _⟩ ⟨hm, hdepth⟩ => ?_
  obtain rfl : depth' = _ := hdepth
  refine (like_current w).bind fun opening _ hopening =>
    (like_skipTo w depth' "script" hopening).bind fun _ _ _ => ?_
  rw [script_eq_of_like w hm h]
  exact like_pure rfl

theorem like_scriptDeclaration : Like T S Eq scriptDeclaration scriptDeclaration := by
  refine (like_current w).bind fun t t' ht => .ite (by rw [(w.alike ht).kind_eq]) (fun _ _ => ?_)
    fun _ _ => like_pure rfl
  refine (like_next w).bind fun id id' hid => ?_
  refine .ite (by rw [isScriptId_eq_of_alike (w.alike hid)]) (fun hscript _ => ?_)
    fun _ _ => like_unexpected w hid _
  have hkind : id.kind ≠ .newline := by
    intro hbreak
    rw [isScriptId, hbreak] at hscript
    simp at hscript
  exact (like_scriptTail w ((w.alike hid).same hid hkind)).map fun _ _ => congrArg some

/-! ## Directives -/

theorem like_directiveWord (word : String) : Like T S Eq (directiveWord word) (directiveWord word) := by
  have hforward := forward_current.bind fun t => forward_ite (c := t.kind = .hash)
    (forward_next.bind fun t => forward_ite (c := t.isWord word = true) (forward_pure (some ()))
      (forward_pure none)) (forward_pure none)
  refine Like.tentatively ?_ (fun h => congrArg _ h) hforward hforward
  refine (like_current w).bind fun t t' ht => .ite (by rw [(w.alike ht).kind_eq]) (fun _ _ => ?_)
    fun _ _ => like_pure rfl
  exact (like_next w).bind fun _ _ hword => .ite (by rw [(w.alike hword).isWord_eq])
    (fun _ _ => like_pure rfl) fun _ _ => like_pure rfl

theorem like_directive (word : String) {body : Reading Declaration} (h : Like T S Eq body body) :
    Like T S Eq (directive word body) (directive word body) := by
  rw [directive_eq]
  exact like_headed (like_directiveWord w word) fun _ => h.map fun _ _ => congrArg some

theorem like_quoted (expected : String) : Like T S Eq (quoted expected) (quoted expected) :=
  (like_expect w (by decide) _).map fun _ _ h => h.2

theorem like_enumDeclaration : Like T S Eq enumDeclaration enumDeclaration := by
  rw [enumDeclaration_eq]
  exact like_headed (like_aggregateHead w _) (like_enumRest w)

/-! ## Variables with a number -/

theorem like_takeEmptyBrackets : Like T S Eq takeEmptyBrackets takeEmptyBrackets := by
  refine (like_current w).bind fun t t' ht => .ite (by rw [(w.alike ht).kind_eq]) (fun _ _ => ?_)
    fun _ _ => like_pure rfl
  exact (like_expect w (by decide) _).bind fun _ _ _ => (like_next w).bind fun _ _ _ =>
    like_pure rfl

theorem like_indexedVariable : Like T S Eq indexedVariable indexedVariable := by
  refine (like_expect w (by decide) _).bind fun type type' htype => ?_
  refine (like_expect w (by decide) _).bind fun index index' hindex => ?_
  refine (like_expect w (by decide) _).bind fun _ _ _ => ?_
  refine (like_expect w (by decide) _).bind fun name name' hname => ?_
  refine (like_next w).bind fun _ _ _ => (like_takeEmptyBrackets w).bind fun isArray _ harray => ?_
  subst harray
  refine (like_current w).bind fun t t' ht => (like_check w ht (by decide) _).bind fun _ _ _ => ?_
  rw [typeText_eq_of_same htype, hindex.2, hname.2]
  exact like_pure rfl

theorem like_indexedDeclaration (word : Keyword) (declare : IndexedVariable → Declaration) :
    Like T S Eq (indexedDeclaration word declare) (indexedDeclaration word declare) :=
  (like_current w).bind fun _ _ ht => .ite (by rw [(w.alike ht).kind_eq])
    (fun _ _ => (like_indexedVariable w).map fun _ _ => congrArg (some <| declare ·))
    fun _ _ => like_pure rfl

/-! ## Namespaces -/

theorem like_namespaceRound (isStrict : Bool) (keys : List NamespaceKey) :
    Like T S (Round.Like Eq (NamespaceHead.Like T)) (namespaceRound isStrict keys)
      (namespaceRound isStrict keys) := by
  refine (like_next w).bind fun name name' hname => ?_
  have halike := w.alike hname
  refine .ite (by rw [halike.kind_eq]) (fun hsymbol _ => ?_) fun _ _ =>
    like_pure ⟨rfl, .some (Fault.like_unexpected hname halike _)⟩
  rw [halike.text_eq (by rw [hsymbol]; decide)]
  refine (like_next w).bind fun after after' hafter => ?_
  have hkind := (w.alike hafter).kind_eq
  refine .ite (by rw [hkind]) (fun _ _ => like_pure rfl) fun _ _ => ?_
  exact .ite (by rw [hkind]) (fun _ _ => like_pure ⟨rfl, .none⟩) fun _ _ =>
    like_pure ⟨rfl, .some (Fault.like_unexpected hafter (w.alike hafter) _)⟩

theorem like_namespaceNames (isStrict : Bool) :
    Like T S (NamespaceHead.Like T) (namespaceNames isStrict) (namespaceNames isStrict) := by
  refine like_peek_bind w fun t t' ht => .ite (by rw [(w.alike ht).kind_eq])
    (fun _ _ => (like_next w).bind fun _ _ _ => like_pure ⟨rfl, .none⟩) fun _ _ => ?_
  exact like_loop _ _ (fun keys _ hkeys => hkeys ▸ like_namespaceRound w isStrict keys) rfl

theorem like_namespaceHead :
    Like T S (Option.Rel (NamespaceHead.Like T)) namespaceHead namespaceHead := by
  refine (like_current w).bind fun t t' ht => ?_
  rw [(w.alike ht).kind_eq]
  split
  · exact (like_expect w (by decide) _).bind fun _ _ _ =>
      (like_namespaceNames w true).map fun _ _ => .some
  · exact (like_namespaceNames w false).map fun _ _ => .some
  · exact like_pure .none

end Walk

section Likeness

variable (l : Likeness T S L)

include l

/-! ## Sizes and initialisers -/

theorem like_memberSize : Like T S Eq memberSize memberSize := by
  refine (like_next l.toWalk).bind fun t t' ht => .ite (by rw [(l.alike ht).kind_eq])
    (fun _ _ => ?_) fun _ _ => like_pure rfl
  refine (like_bracketSize l).bind fun size _ hsize => ?_
  subst hsize
  exact (like_next l.toWalk).bind fun _ _ _ => like_pure rfl

theorem like_structName (type : String) : Like T S Eq (structName type) (structName type) := by
  refine (like_expect l.toWalk (by decide) _).bind fun name name' hname => ?_
  refine (like_memberSize l).bind fun size _ hsize => ?_
  subst hsize
  refine (like_current l.toWalk).bind fun after after' hafter => ?_
  rw [(l.alike hafter).kind_eq, hname.2]
  split
  · exact like_pure rfl
  · exact like_pure rfl
  · exact like_unexpected l.toWalk hafter _

theorem like_structNames {type type' : Token} (h : Token.Same T type type') :
    Like T S Eq (structNames type) (structNames type') := by
  show Like T S Eq
    (gather (structName (typeText type)) (consumes_structName (typeText type)) >>=
      fun members => pure (members, true)) (structNames type')
  rw [typeText_eq_of_same h]
  refine (like_gather_eq _ (like_structName l _)).bind fun members _ hmembers => ?_
  subst hmembers
  exact like_pure rfl

theorem like_structMembers : Like T S Eq structMembers structMembers :=
  (like_next l.toWalk).bind fun _ _ ht => .ite (by rw [(l.alike ht).kind_eq])
    (fun _ _ => like_pure rfl) fun _ _ => (like_check l.toWalk ht (by decide) _).bind
      fun _ _ htype => like_structNames l htype

theorem like_structRest (isPrivate : Bool) :
    Like T S Eq (structRest isPrivate) (structRest isPrivate) := by
  have w := l.toWalk
  refine (like_next w).bind fun _ _ _ => (like_takeName w).bind fun name _ hname => ?_
  refine (like_current w).bind fun t t' ht => (like_check w ht (by decide) _).bind fun _ _ _ => ?_
  refine (like_gather_eq _ (like_structMembers l)).bind fun members _ hmembers => ?_
  refine (like_structInstances w).bind fun instances _ hinstances => ?_
  subst hname hmembers hinstances
  exact like_pure rfl

theorem like_structDeclaration : Like T S Eq structDeclaration structDeclaration := by
  rw [structDeclaration_eq]
  exact like_headed (like_aggregateHead l.toWalk _) (like_structRest l)

theorem like_parameterDefault : Like T S Eq parameterDefault parameterDefault := by
  refine (like_next l.toWalk).bind fun t t' ht => .ite (by rw [(l.alike ht).kind_eq])
    (fun _ _ => ?_) fun _ _ => like_pure rfl
  refine (like_advance_same l).bind fun value value' hvalue => ?_
  rw [(l.alike hvalue.1).literal_eq hvalue.2]
  exact (like_next l.toWalk).bind fun _ _ _ => like_pure rfl

theorem like_functionParameter (type : String) :
    Like T S Eq (functionParameter type) (functionParameter type) := by
  refine (like_expect l.toWalk (by decide) _).bind fun name name' hname => ?_
  refine (like_parameterDefault l).bind fun value _ hvalue => ?_
  rw [hname.2, hvalue]
  exact like_pure rfl

theorem like_functionSignature (isPrivate : Bool) :
    Like T S Eq (functionSignature isPrivate) (functionSignature isPrivate) := by
  have w := l.toWalk
  refine (like_current w).bind fun t t' ht => ?_
  refine (like_check w ht (by decide) _).bind fun type type' htype => ?_
  refine (like_expect w (by decide) _).bind fun name name' hname => ?_
  rw [typeText_eq_of_same htype, hname.2]
  refine (like_expect w (by decide) _).bind fun _ _ _ => ?_
  refine (like_parameters w _ (like_functionParameter l)).bind fun ps _ hps => ?_
  refine (like_braceDepth w).bind fun depth _ hdepth => ?_
  refine (like_takeClientside w).bind fun isClientside _ hclientside => ?_
  subst hps hdepth hclientside
  exact like_pure rfl

theorem like_functionRest (isPrivate : Bool) :
    Like T S Eq (functionRest isPrivate) (functionRest isPrivate) := by
  refine (like_functionSignature l isPrivate).bind fun ⟨f, depth⟩ _ hf => ?_
  subst hf
  exact (like_functionBody l.toWalk depth).bind fun _ _ _ => like_pure rfl

theorem like_functionDeclaration : Like T S Eq functionDeclaration functionDeclaration := by
  rw [functionDeclaration_eq]
  exact like_headed (like_functionHead l.toWalk) (like_functionRest l)

/-! ## Type definitions -/

theorem like_bareType (type : String) : Like T S Eq (bareType type) (bareType type) :=
  (like_next l.toWalk).bind fun _ _ _ => like_pure rfl

theorem like_endTypedef (t : Typedef) : Like T S Eq (endTypedef t) (endTypedef t) :=
  (like_expect l.toWalk (by decide) _).bind fun _ _ _ => like_pure rfl

theorem like_typedefBody : Like T S Eq typedefBody typedefBody := by
  have w := l.toWalk
  refine (like_expect w (by decide) _).bind fun type type' htype => ?_
  refine (like_expect w (by decide) _).bind fun name name' hname => ?_
  refine (like_next w).bind fun after after' hafter => ?_
  rw [(w.alike hafter).kind_eq, typeText_eq_of_same htype, hname.2]
  split
  · exact like_pure rfl
  · exact (like_bracketSize l).bind fun size _ hsize => hsize ▸ like_endTypedef l _
  · exact (like_parameters w _ (like_bareType l)).bind fun ps _ hps => hps ▸ like_endTypedef l _
  · exact like_unexpected w hafter _

theorem like_typedefDeclaration : Like T S Eq typedefDeclaration typedefDeclaration :=
  (like_current l.toWalk).bind fun _ _ ht => .ite (by rw [(l.alike ht).kind_eq])
    (fun _ _ => (like_typedefBody l).map fun _ _ => congrArg some) fun _ _ => like_pure rfl

/-! ## Values up to the end of the line -/

theorem like_withLineBreaks {α α' : Type} {R : α → α' → Prop} {p : Reading α} {q : Reading α'}
    (h : Like T L R p q) : Like T S R (withLineBreaks p) (withLineBreaks q) := by
  intro s s' hs
  have hrel := h (l.breaks hs)
  unfold withLineBreaks
  generalize p (s.withMask { s.mask with newlines := false }) = r at hrel
  generalize q (s'.withMask { s'.mask with newlines := false }) = r' at hrel
  cases r <;> cases r'
  · exact ⟨hrel.1, l.back hs hrel.2⟩
  · exact hrel.elim
  · exact hrel.elim
  · exact ⟨hrel.1, l.back hs hrel.2⟩

theorem like_defineBody : Like T S Eq defineBody defineBody := by
  refine (like_expect l.toWalk (by decide) _).bind fun key key' hkey => ?_
  have hvalue : Like T S Eq (withLineBreaks do let _ ← next; Value.read)
      (withLineBreaks do let _ ← next; Value.read) :=
    like_withLineBreaks l ((like_next l.line).bind fun _ _ _ => Value.like_read l.line)
  refine hvalue.bind fun value _ hvalue => ?_
  rw [hkey.2, hvalue]
  exact like_pure rfl

/-! ## Variables of one type -/

theorem like_arrayTail (name : String) :
    Like T S (fun v v' => v.unwritten = v'.unwritten) (arrayTail name) (arrayTail name) := by
  refine (like_bracketSize l).bind fun size _ hsize => ?_
  subst hsize
  refine (like_next l.toWalk).bind fun t t' ht => .ite (by rw [(l.alike ht).kind_eq])
    (fun _ _ => ?_) fun _ _ => like_pure rfl
  exact (like_arrayInitializer l.toWalk).bind fun _ _ _ => (like_next l.toWalk).bind fun _ _ _ =>
    like_pure rfl

theorem like_initialValue (name : String) :
    Like T S Eq (initialValue name) (initialValue name) := by
  refine like_peek_bind l.toWalk fun t t' ht => .ite (by rw [(l.alike ht).kind_eq])
    (fun _ _ => ?_) fun _ _ => ?_
  · refine (like_recordInitializer l).bind fun values _ hvalues => ?_
    subst hvalues
    exact (like_next l.toWalk).bind fun _ _ _ => like_pure rfl
  · refine (like_advance l.toWalk).bind fun _ _ _ => ?_
    exact (Value.like_read l.toWalk).bind fun value _ hvalue => hvalue ▸ like_pure rfl

theorem like_variableTail (name : String) :
    Like T S (fun v v' => v.unwritten = v'.unwritten) (variableTail name) (variableTail name) := by
  refine (like_next l.toWalk).bind fun after after' hafter => ?_
  have hkind := (l.alike hafter).kind_eq
  refine .ite (by rw [hkind]) (fun _ _ => like_arrayTail l name) fun _ _ => ?_
  exact .ite (by rw [hkind])
    (fun _ _ => (like_initialValue l name).mono fun _ _ h => congrArg _ h) fun _ _ => like_pure rfl

theorem like_variableItem :
    Like T S (fun x x' => List.Forall₂ (fun v v' => v.unwritten = v'.unwritten) x.1 x'.1 ∧
      x.2 = x'.2) variableItem variableItem := by
  refine (like_expect l.toWalk (by decide) _).bind fun name name' hname => ?_
  rw [hname.2]
  refine (like_variableTail l _).bind fun v v' hv => ?_
  refine (like_current l.toWalk).bind fun after after' hafter => ?_
  rw [(l.alike hafter).kind_eq]
  split
  · exact like_pure ⟨.cons hv .nil, rfl⟩
  · exact like_pure ⟨.cons hv .nil, rfl⟩
  · exact like_unexpected l.toWalk hafter _

theorem like_variablesRest (isPrivate : Bool) {s s' : Scanner} (hs : S s s')
    (hkind : s.token.kind = .symbol) :
    Result.Like T S Unwritten (variablesRest isPrivate s) (variablesRest isPrivate s') := by
  have htype := (l.alike (l.token hs)).same (l.token hs) (by rw [hkind]; decide)
  have hrest : ∀ items items' : List Variable,
      List.Forall₂ (fun v v' => v.unwritten = v'.unwritten) items items' →
      Like T S Unwritten
        (pure (some (.variableGroup ⟨isPrivate, typeText s.token, items⟩)))
        (pure (some (.variableGroup ⟨isPrivate, typeText s'.token, items'⟩))) := by
    intro items items' hitems
    have hmap : items.map Variable.unwritten = items'.map Variable.unwritten := by
      rwa [← List.forall₂_eq_eq_eq, List.forall₂_map_left_iff, List.forall₂_map_right_iff]
    refine like_pure ?_
    rw [Unwritten, Option.map_some, Option.map_some, Declaration.unwritten, Declaration.unwritten,
      hmap, typeText_eq_of_same htype]
  exact ((like_gather _ _ (like_variableItem l)).bind hrest) hs

theorem like_variablesHead : Like T S Eq variablesHead variablesHead := by
  have w := l.toWalk
  have hforward := forward_accessModifier.bind fun isPrivate => forward_current.bind fun t =>
    forward_ite (c := isPrivate ∧ t.kind ≠ .symbol)
      (forward_unexpected "a declaration after `private`" t)
      (forward_ite (c := t.kind ≠ .symbol) (forward_pure none)
        (forward_startsFunction.bind fun starts =>
          forward_ite (c := starts = true) (forward_pure none) (forward_pure (some isPrivate))))
  refine Like.tentatively ?_ (fun h => congrArg _ h) hforward hforward
  refine (like_accessModifier w).bind fun isPrivate _ hprivate => ?_
  subst hprivate
  refine (like_current w).bind fun t t' ht => ?_
  have hkind := (w.alike ht).kind_eq
  refine .ite (by rw [hkind]) (fun _ _ => like_unexpected w ht _) fun _ _ => ?_
  refine .ite (by rw [hkind]) (fun _ _ => like_pure rfl) fun _ _ => ?_
  refine (like_startsFunction w).bind fun starts _ hstarts => ?_
  subst hstarts
  exact .ite Iff.rfl (fun _ _ => like_pure rfl) fun _ _ => like_pure rfl

theorem like_variablesDeclaration :
    Like T S Unwritten variablesDeclaration variablesDeclaration := by
  intro s s' hs
  rw [variablesDeclaration_eq]
  refine like_bind_at (like_variablesHead l hs) fun {a a' u u'} hhead ha hu => ?_
  subst ha
  cases a with
  | none => exact ⟨rfl, hu⟩
  | some isPrivate => exact like_variablesRest l isPrivate hu (kind_of_variablesHead hhead)

end Likeness

end Grammar

end AcsOutline
