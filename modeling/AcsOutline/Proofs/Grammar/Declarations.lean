import AcsOutline.Grammar.Aggregate
import AcsOutline.Grammar.Callable
import AcsOutline.Grammar.Directive
import AcsOutline.Grammar.Namespace
import AcsOutline.Grammar.Typedef
import AcsOutline.Grammar.Variable
import AcsOutline.Proofs.Grammar.Basic

/-!
# Declarations agree

What the declarations are read with, after the words that tell them apart, agrees on a part of a
source.
-/

namespace AcsOutline

namespace Grammar

open Reading

variable {m : Shift}

/-! ## Enums and structs -/

theorem agrees_takeUnderlying : Agrees m id takeUnderlying takeUnderlying :=
  agrees_current.bind fun _ => .ite Iff.rfl
    ((agrees_expect _ _).bind fun type => agrees_next.bind fun _ =>
      agrees_pure (some (typeText type)))
    (agrees_pure none)

theorem agrees_memberValue : Agrees m id memberValue memberValue :=
  agrees_next.bind fun _ => .ite Iff.rfl
    (agrees_advance.bind fun _ => Value.agrees_read.map fun _ => rfl) (agrees_pure none)

theorem agrees_enumMemberTail (name : Token) :
    Agrees m id (enumMemberTail (name.move m.move)) (enumMemberTail name) :=
  agrees_memberValue.bind fun value => agrees_current.bind fun after => by
    simp only [Token.kind_move]
    split
    · exact agrees_pure _
    · exact agrees_pure _
    · exact agrees_unexpected _ after

theorem agrees_enumMember : Agrees m id enumMember enumMember :=
  agrees_next.bind fun t => .ite Iff.rfl (agrees_pure ([], false))
    ((agrees_check t _ _).bind agrees_enumMemberTail)

theorem agrees_memberSize : Agrees m id memberSize memberSize :=
  agrees_next.bind fun _ => .ite Iff.rfl
    (agrees_bracketSize.bind fun size => agrees_next.bind fun _ => agrees_pure size)
    (agrees_pure none)

theorem agrees_structName (type : String) : Agrees m id (structName type) (structName type) :=
  (agrees_expect _ _).bind fun name => agrees_memberSize.bind fun size =>
    agrees_current.bind fun after => by
      simp only [Token.kind_move, Token.text_move]
      split
      · exact agrees_pure _
      · exact agrees_pure _
      · exact agrees_unexpected _ after

theorem agrees_structMembers : Agrees m id structMembers structMembers :=
  agrees_next.bind fun t => .ite Iff.rfl (agrees_pure ([], false))
    ((agrees_check t _ _).bind fun type =>
      (agrees_gather (consumes_structName (typeText type)) (agrees_structName _)).bind
        fun members => agrees_pure (members, true))

theorem agrees_instanceName : Agrees m id instanceName instanceName :=
  (agrees_expect _ _).bind fun name => agrees_next.bind fun after => by
    simp only [Token.kind_move, Token.text_move]
    split
    · exact agrees_pure ([name.text], true)
    · exact agrees_pure ([name.text], false)
    · exact agrees_unexpected _ after

theorem takes_instanceName : instanceName.Takes 2 := by
  refine (readsNext_expect _ _).takes_bind fun name => readsNext_next.takes_bind fun after => ?_
  split
  · exact onward_pure _
  · exact onward_pure _
  · exact fun _ _ _ h => nomatch h

theorem agrees_structInstances : Agrees m id structInstances structInstances := by
  refine agrees_peekTwo (c := ';') (k := .semicolon) (by decide)
    (d := fun first second =>
      first.kind = .symbol ∧ (second.kind = .comma ∨ second.kind = .semicolon)) ?_
    (fun _ _ => Iff.rfl) (fun _ _ => rfl) (agrees_advance.bind fun _ => agrees_pure [])
    (agrees_gather consumes_instanceName agrees_instanceName) (agrees_pure [])
    (fun _ => readsNext_advance.takes_bind fun _ => onward_pure [])
    fun _ => takes_gather consumes_instanceName takes_instanceName
  rintro _ second ⟨-, hsecond | hsecond⟩
  · exact ⟨',', by rw [hsecond]; decide⟩
  · exact ⟨';', by rw [hsecond]; decide⟩

/-! ## Functions and scripts -/

theorem agrees_parameterDefault : Agrees m id parameterDefault parameterDefault :=
  agrees_next.bind fun _ => .ite Iff.rfl
    (agrees_advance.bind fun value => agrees_next.bind fun _ => agrees_pure (some value.literal))
    (agrees_pure none)

theorem agrees_functionParameter (type : String) :
    Agrees m id (functionParameter type) (functionParameter type) :=
  (agrees_expect _ _).bind fun _ => agrees_parameterDefault.bind fun _ => agrees_pure _

theorem agrees_takeClientside : Agrees m id takeClientside takeClientside :=
  agrees_next.bind fun _ => .ite Iff.rfl
    (agrees_next.bind fun _ => agrees_pure true) (agrees_pure false)

theorem agrees_functionBody (depth : Int) :
    Agrees m id (functionBody (depth + m.braces)) (functionBody depth) :=
  agrees_current.bind fun t => by
    simp only [Token.kind_move]
    split
    · exact agrees_pure ()
    · exact agrees_skipTo depth "function" t.span
    · exact agrees_unexpected _ t

theorem agrees_scriptParameter (type : String) :
    Agrees m id (scriptParameter type) (scriptParameter type) :=
  agrees_next.bind fun _ => agrees_takeName.bind fun _ => agrees_pure _

/-- Modifiers that were read in a part, at their places in the source. -/
def Modifiers.move (m : Move) (ms : Modifiers) : Modifiers where
  activator := ms.activator.map (Token.move m)
  clientside := ms.clientside.map (Token.move m)
  net := ms.net.map (Token.move m)

theorem Modifiers.get?_move (m : Move) (ms : Modifiers) (sort : ModifierSort) :
    (ms.move m).get? sort = (ms.get? sort).map (Token.move m) := by
  cases sort <;> rfl

theorem Modifiers.set_move (m : Move) (ms : Modifiers) (t : Token) (sort : ModifierSort) :
    (ms.move m).set (t.move m) sort = (ms.set t sort).move m := by
  cases sort <;> rfl

instance : m.Moves (Modifiers.move m.move) where
  eq_self h ms := by
    have hid : Token.move m.move = id := funext (Shift.Moves.eq_self h)
    simp only [Modifiers.move, hid, Option.map_id, id]

theorem agrees_addModifier (ms : Modifiers) (t : Token) :
    Agrees m (Modifiers.move m.move) (settle ((ms.move m.move).add (t.move m.move)))
      (settle (ms.add t)) := by
  have hsort : ModifierSort.ofToken (t.move m.move) = .ofToken t := rfl
  rw [Modifiers.add, Modifiers.add, hsort, Modifiers.get?_move]
  cases ms.get? (.ofToken t) with
  | some first => exact agrees_settle_error (.repeatedModifier first t)
  | none =>
    rw [Option.map_none, Modifiers.set_move]
    exact agrees_settle_ok (ms.set t (.ofToken t))

/-- Modifiers that were read in a part with the depth of braces, as they are in the source. -/
abbrev Modifiers.moveDeep (m : Shift) : Modifiers × Int → Modifiers × Int :=
  Prod.map (Modifiers.move m.move) (· + m.braces)

theorem agrees_modifierRound (state : Modifiers × Int) :
    Agrees m (Round.move (Modifiers.moveDeep m) (Modifiers.moveDeep m))
      (modifierRound (Modifiers.moveDeep m state)) (modifierRound state) :=
  agrees_current.bind fun t => .ite Iff.rfl (agrees_pure (Round.done state))
    (.ite Iff.rfl
      ((agrees_addModifier state.1 t).bind fun ms => agrees_braceDepth.bind fun depth =>
        agrees_next.bind fun _ => agrees_pure (Round.again (ms, depth)))
      (agrees_unexpected _ t))

theorem agrees_modifiers (depth : Int) :
    Agrees m (Modifiers.moveDeep m) (modifiers (depth + m.braces)) (modifiers depth) :=
  agrees_loop _ _ agrees_modifierRound (.empty, depth)

theorem agrees_scriptParameters :
    Agrees m (Prod.map id (· + m.braces)) scriptParameters scriptParameters :=
  agrees_braceDepth.bind fun depth => agrees_next.bind fun _ => .ite Iff.rfl
    ((agrees_parameters within_scriptParameter agrees_scriptParameter).bind fun ps =>
      agrees_braceDepth.bind fun depth' => agrees_next.bind fun _ => agrees_pure (ps, depth'))
    (agrees_pure ([], depth))

theorem Modifiers.script_move (m : Move) (ms : Modifiers) (id : Token)
    (ps : List ScriptParameter) : (ms.move m).script (id.move m) ps = ms.script id ps := by
  obtain ⟨activator, clientside, net⟩ := ms
  simp only [script, Modifiers.move, Option.map_map, Option.isSome_map]
  rfl

theorem agrees_scriptTail (name : Token) :
    Agrees m id (scriptTail (name.move m.move)) (scriptTail name) :=
  agrees_scriptParameters.bind fun ⟨ps, depth⟩ => (agrees_modifiers depth).bind fun ⟨ms, depth'⟩ =>
    agrees_current.bind fun opening =>
      (agrees_skipTo depth' "script" opening.span).bind fun _ => by
        show Agrees m id (pure (Declaration.script ((ms.move m.move).script (name.move m.move) ps))) _
        rw [Modifiers.script_move]
        exact agrees_pure _

theorem isScriptId_move (t : Token) : isScriptId (t.move m.move) = isScriptId t := by
  simp [isScriptId]

theorem agrees_scriptDeclaration : Agrees m id scriptDeclaration scriptDeclaration :=
  agrees_current.bind fun _ => .ite Iff.rfl
    (agrees_next.bind fun name => .ite (by rw [isScriptId_move])
      ((agrees_scriptTail name).map fun _ => rfl) (agrees_unexpected _ name))
    (agrees_pure none)

/-! ## Directives -/

theorem agrees_quoted (expected : String) : Agrees m id (quoted expected) (quoted expected) :=
  (agrees_expect _ _).map fun _ => rfl

theorem agrees_withLineBreaks {α : Type} {g : α → α} {p q : Reading α}
    (h : ∀ mask, Agrees (m.withMask mask) g p q) :
    Agrees m g (withLineBreaks p) (withLineBreaks q) where
  onward hafter s a u e := by
    unfold withLineBreaks at e
    split at e
    next h' =>
      cases e
      have hrest := (h .all).onward hafter h'
      exact hrest
    next => cases e
  relates s t hst := by
    have hrel := (h _).relates (hst.withMask { m.mask with newlines := false })
    unfold withLineBreaks
    rw [hst.whole_mask, hst.part_mask]
    cases e : p (s.withMask { m.mask with newlines := false }) with
    | ok a u =>
      rw [e] at hrel
      intro hin
      obtain ⟨b, v, hq, ha, huv⟩ := hrel hin
      rw [hq]
      exact ⟨b, _, rfl, ha, huv.withMask_back⟩
    | error fault u =>
      rw [e] at hrel
      intro hafter
      obtain ⟨fault', v, hq, hfault, huv⟩ := hrel hafter
      rw [hq]
      exact ⟨fault', _, rfl, hfault, huv.withMask_back⟩

theorem agrees_defineValue :
    Agrees m id (withLineBreaks do let _ ← next; Value.read)
      (withLineBreaks do let _ ← next; Value.read) :=
  agrees_withLineBreaks fun _ => agrees_next.bind fun _ => Value.agrees_read

theorem agrees_defineBody : Agrees m id defineBody defineBody :=
  (agrees_expect _ _).bind fun _ => agrees_defineValue.bind fun _ => agrees_pure _

/-! ## Type definitions -/

theorem agrees_bareType (type : String) : Agrees m id (bareType type) (bareType type) :=
  agrees_next.bind fun _ => agrees_pure type

theorem agrees_endTypedef (t : Typedef) : Agrees m id (endTypedef t) (endTypedef t) :=
  (agrees_expect _ _).bind fun _ => agrees_pure _

theorem agrees_typedefBody : Agrees m id typedefBody typedefBody :=
  (agrees_expect _ _).bind fun type => (agrees_expect _ _).bind fun name =>
    agrees_next.bind fun after => by
      simp only [Token.kind_move, Token.text_move]
      split
      · exact agrees_pure _
      · exact agrees_bracketSize.bind fun size => agrees_endTypedef _
      · exact (agrees_parameters within_bareType agrees_bareType).bind fun ps =>
          agrees_endTypedef _
      · exact agrees_unexpected _ after

theorem agrees_typedefDeclaration : Agrees m id typedefDeclaration typedefDeclaration :=
  agrees_current.bind fun _ => .ite Iff.rfl
    (agrees_typedefBody.map fun _ => rfl) (agrees_pure none)

/-! ## Variables -/

theorem agrees_takeEmptyBrackets : Agrees m id takeEmptyBrackets takeEmptyBrackets :=
  agrees_current.bind fun _ => .ite Iff.rfl
    ((agrees_expect _ _).bind fun _ => agrees_next.bind fun _ => agrees_pure true)
    (agrees_pure false)

theorem agrees_indexedVariable : Agrees m id indexedVariable indexedVariable :=
  (agrees_expect _ _).bind fun _ => (agrees_expect _ _).bind fun _ =>
    (agrees_expect _ _).bind fun _ => (agrees_expect _ _).bind fun _ =>
      agrees_next.bind fun _ => agrees_takeEmptyBrackets.bind fun _ =>
        agrees_current.bind fun t => (agrees_check t _ _).bind fun _ => agrees_pure _

theorem agrees_indexedDeclaration (word : Keyword) (declare : IndexedVariable → Declaration) :
    Agrees m id (indexedDeclaration word declare) (indexedDeclaration word declare) :=
  agrees_current.bind fun _ => .ite Iff.rfl
    (agrees_indexedVariable.map fun _ => rfl) (agrees_pure none)

theorem agrees_arrayTail (name : String) : Agrees m id (arrayTail name) (arrayTail name) :=
  agrees_bracketSize.bind fun _ => agrees_next.bind fun _ => .ite Iff.rfl
    (agrees_arrayInitializer.bind fun _ => agrees_next.bind fun _ => agrees_pure _)
    (agrees_pure _)

theorem agrees_initialValue (name : String) :
    Agrees m id (initialValue name) (initialValue name) := by
  refine agrees_peek (c := '{') (by decide)
    (agrees_recordInitializer.bind fun _ => agrees_next.bind fun _ => agrees_pure _)
    (agrees_advance.bind fun _ => Value.agrees_read.bind fun _ => agrees_pure _) fun _ => ?_
  exact takes_recordInitializer.bind fun _ => onward_next.bind fun _ => onward_pure _

theorem agrees_variableTail (name : String) :
    Agrees m id (variableTail name) (variableTail name) :=
  agrees_next.bind fun _ => .ite Iff.rfl (agrees_arrayTail name)
    (.ite Iff.rfl (agrees_initialValue name) (agrees_pure _))

theorem agrees_variableItem : Agrees m id variableItem variableItem :=
  (agrees_expect _ _).bind fun name => (agrees_variableTail name.text).bind fun v =>
    agrees_current.bind fun after => by
      simp only [Token.kind_move]
      split
      · exact agrees_pure _
      · exact agrees_pure _
      · exact agrees_unexpected _ after

/-! ## Namespaces -/

/-- The head of a namespace that was read in a part, with its fault at its place in the
source. -/
def NamespaceHead.move (m : Move) (head : NamespaceHead) : NamespaceHead :=
  { head with fault := head.fault.map (Fault.move m) }

instance : m.Moves (NamespaceHead.move m.move) where
  eq_self h head := by
    have hid : Fault.move m.move = id := by
      funext fault
      rw [m.move_eq_of_after h, Fault.move_over_nil, id]
    simp only [NamespaceHead.move, hid, Option.map_id, id]

theorem agrees_namespaceRound (isStrict : Bool) (keys : List NamespaceKey) :
    Agrees m (Round.move id (NamespaceHead.move m.move)) (namespaceRound isStrict keys)
      (namespaceRound isStrict keys) :=
  agrees_next.bind fun name => .ite Iff.rfl
    (agrees_next.bind fun after => .ite Iff.rfl
      (agrees_pure (Round.again (NamespaceKey.mk isStrict (some name.text) :: keys)))
      (.ite Iff.rfl
        (agrees_pure (Round.done
          (NamespaceHead.mk (NamespaceKey.mk isStrict (some name.text) :: keys).reverse none)))
        (by
          rw [← Fault.move_unexpected]
          exact agrees_pure (Round.done
            (NamespaceHead.mk keys.reverse (some (.unexpected "`.` or `\x7b`" after)))))))
    (by
      rw [← Fault.move_unexpected]
      exact agrees_pure (Round.done
        (NamespaceHead.mk keys.reverse (some (.unexpected "namespace name or `\x7b`" name)))))

theorem agrees_namespaceNames (isStrict : Bool) :
    Agrees m (NamespaceHead.move m.move) (namespaceNames isStrict) (namespaceNames isStrict) :=
  agrees_peek (c := '{') (by decide)
    (agrees_next.bind fun _ => agrees_pure (NamespaceHead.mk [⟨isStrict, none⟩] none))
    (agrees_loop (k := id) _ _ (agrees_namespaceRound isStrict) [])
    fun _ => readsNext_next.takes_bind fun _ => onward_pure _

theorem agrees_namespaceHead :
    Agrees m (Option.map (NamespaceHead.move m.move)) namespaceHead namespaceHead :=
  agrees_current.bind fun t => by
    simp only [Token.kind_move]
    split
    · exact (agrees_expect _ _).bind fun _ => (agrees_namespaceNames true).map fun _ => rfl
    · exact (agrees_namespaceNames false).map fun _ => rfl
    · exact agrees_pure none

end Grammar

end AcsOutline
