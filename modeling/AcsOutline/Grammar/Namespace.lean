import AcsOutline.Grammar.Basic
import AcsOutline.Tree

/-!
# Namespace heads

`strict? namespace name(.name)* {` opens one namespace for each name, all strict or none, and
`strict? namespace {` an anonymous one.  `namespaceHead` reads such a head as far as it is well
formed: it gives the namespaces that are opened, and the fault if the head does not go on
as it should.
-/

namespace AcsOutline.Grammar

open Reading

/-- The namespaces that a head opens, from the outside in, and the fault that ends the head
early. -/
structure NamespaceHead where
  /-- The keys of the namespaces that are opened. -/
  keys : List NamespaceKey
  /-- Why the head is not complete, if it is not. -/
  fault : Option Fault
deriving DecidableEq, Inhabited

/-- Reads a name and the point or brace after it. -/
def namespaceRound (isStrict : Bool) (keys : List NamespaceKey) :
    Reading (Round (List NamespaceKey) NamespaceHead) := do
  let name ← next
  if name.kind = .symbol then
    let after ← next
    if after.kind = .dot then
      return .again (⟨isStrict, some name.text⟩ :: keys)
    else if after.kind = .lbrace then
      return .done ⟨(⟨isStrict, some name.text⟩ :: keys).reverse, none⟩
    else
      return .done ⟨keys.reverse, some (.unexpected "`.` or `\x7b`" after)⟩
  else
    return .done ⟨keys.reverse, some (.unexpected "namespace name or `\x7b`" name)⟩

theorem namespaceRound_progresses (isStrict : Bool) : Progresses (namespaceRound isStrict) := by
  intro keys s keys' t h
  obtain ⟨_, _, hn, h⟩ := bind_eq_ok.1 h
  cases hn
  split at h
  next hname =>
    obtain ⟨_, _, hn, h⟩ := bind_eq_ok.1 h
    cases hn
    split at h
    · cases h
      exact ⟨(Scanner.Reads.refl _).next, Or.inr (by rw [hname]; decide)⟩
    · split at h <;> cases h
  · cases h

theorem within_namespaceRound (isStrict : Bool) (keys : List NamespaceKey) :
    (namespaceRound isStrict keys).Within :=
  within_next.bind fun _ => by
    split
    · refine within_next.bind fun _ => ?_
      split
      · exact within_pure _
      · split <;> exact within_pure _
    · exact within_pure _

/-- Reads a namespace head after `namespace`. -/
def namespaceNames (isStrict : Bool) : Reading NamespaceHead := do
  if (← peek).kind = .lbrace then
    let _ ← next
    return ⟨[⟨isStrict, none⟩], none⟩
  else
    loop (namespaceRound isStrict) (namespaceRound_progresses isStrict) []

theorem within_namespaceNames (isStrict : Bool) : (namespaceNames isStrict).Within :=
  within_peek.bind fun _ => by
    split
    · exact within_next.bind fun _ => within_pure _
    · exact within_loop _ (within_namespaceRound isStrict) []

/-- Reads a namespace head if the current token starts one. -/
def namespaceHead : Reading (Option NamespaceHead) := do
  match (← current).kind with
  | .keyword .strictWord =>
    let _ ← expect (.keyword .namespaceWord) "`namespace` after `strict`"
    some <$> namespaceNames true
  | .keyword .namespaceWord => some <$> namespaceNames false
  | _ => return none

theorem within_namespaceHead : namespaceHead.Within :=
  within_current.bind fun _ => by
    split
    · exact (consumes_expect (by decide) _).within.bind fun _ =>
        (within_namespaceNames true).map _
    · exact (within_namespaceNames false).map _
    · exact within_pure _

end AcsOutline.Grammar
