import AcsOutline.Proofs.Lowering.Exports

/-!
# The plain dialect

A declaration is *plain* when the plain dialect can express it: it is public and not hidden, it
is no include, enum, struct or type definition, its variables have no struct initialisers, and
its types are those of the dialect.  Every level of a lowered tree holds plain declarations only
(`Tree.isPlain_lower`).
-/

namespace AcsOutline

namespace Dialect

/-- Whether a dialect has a type: an allowed one, or the one that replaces the others. -/
def Has (d : Dialect) (type : String) : Prop :=
  type ∈ d.allowedTypes ∨ type = d.defaultType

theorem has_coerce (d : Dialect) (type : String) : d.Has (d.coerce type) := by
  unfold coerce
  cases h : d.allowedTypes.find? (Text.sameWord · type) with
  | none => exact Or.inr rfl
  | some allowed => exact Or.inl (List.mem_of_find?_eq_some h)

/-- Types that are the same word are replaced by the same type. -/
theorem coerce_of_sameWord (d : Dialect) {a b : String} (h : Text.sameWord a b = true) :
    d.coerce a = d.coerce b := by
  have hsame : (fun allowed => Text.sameWord allowed a) = (Text.sameWord · b) := by
    funext allowed
    rw [Bool.eq_iff_iff]
    exact ⟨fun ha => Text.sameWord_trans ha h,
      fun hb => Text.sameWord_trans hb (Text.sameWord_comm b a ▸ h)⟩
  rw [coerce, coerce, hsame]

end Dialect

/-- A word with its ASCII letters in lower case. -/
def Text.lowerWord (word : String) : String :=
  String.ofList (word.toList.map Char.toLower)

theorem Text.sameWord_of_lowerWord_eq {a b : String} (h : lowerWord a = lowerWord b) :
    sameWord a b = true := by
  rw [lowerWord, lowerWord, String.ofList_inj] at h
  exact beq_iff_eq.2 h

/-! ## Plain declarations -/

/-- Whether the plain dialect has a sort of variable: all but those that are initialised like
structs. -/
def Variable.isPlain : Variable → Bool
  | scalar _ _ | array _ _ _ => true
  | record _ _ => false

namespace Declaration

/-- The types that a declaration uses and that lowering replaces. -/
def types : Declaration → List String
  | variableGroup v => [v.type]
  | function f => f.returnType :: f.parameters.map (·.type)
  | script s => s.parameters.map (·.type)
  | _ => []

/-- Whether the plain dialect has a sort of declaration. -/
def isPlain : Declaration → Bool
  | includeFile _ | enum _ | struct _ | typedef _ => false
  | variableGroup v => !v.items.isEmpty && v.items.all Variable.isPlain
  | _ => true

end Declaration

/-- A declaration that the plain dialect can express. -/
structure Entry.IsPlain (d : Dialect) (e : Entry) : Prop where
  isHidden_eq : e.isHidden = false
  isPrivate_eq : e.declaration.isPrivate = false
  isPlain_eq : e.declaration.isPlain = true
  has_type : ∀ type ∈ e.declaration.types, d.Has type

/-- A level with nothing but plain declarations. -/
def Tree.IsPlain (d : Dialect) (t : Tree) : Prop :=
  ∀ e ∈ t.entries.toList, e.IsPlain d

/-! ## Lowering -/

theorem Variable.isPlain_of_lower? {d : Dialect} {v w : Variable} (h : v.lower? d = some w) :
    w.isPlain = true := by
  cases v <;> cases h <;> rfl

namespace Declaration

/-- **What is left of a declaration is of a sort that the plain dialect has**, and its types are
those of the dialect. -/
theorem isPlain_of_mem_lower {d : Dialect} {x y : Declaration} (hy : y ∈ x.lower d) :
    y.isPlain = true ∧ ∀ type ∈ y.types, d.Has type := by
  cases x with
  | includeFile | struct | typedef => cases hy
  | enum e =>
    obtain ⟨m, -, rfl⟩ := List.mem_map.1 hy
    exact ⟨rfl, nofun⟩
  | variableGroup v =>
    obtain ⟨hsome, rfl⟩ := of_mem_lower_variableGroup hy
    have hitems : (v.items.filterMap (Variable.lower? d)).all Variable.isPlain = true := by
      rw [List.all_eq_true]
      intro item hitem
      obtain ⟨_, -, hlower⟩ := List.mem_filterMap.1 hitem
      exact Variable.isPlain_of_lower? hlower
    refine ⟨?_, ?_⟩
    · simp only [isPlain, hitems, hsome, Bool.not_false, Bool.and_true]
    · intro type htype
      obtain rfl := List.mem_singleton.1 htype
      exact d.has_coerce _
  | function f =>
    obtain rfl := List.mem_singleton.1 hy
    refine ⟨rfl, fun type htype => ?_⟩
    rcases List.mem_cons.1 htype with rfl | htype
    · exact d.has_coerce _
    · obtain ⟨p, hp, rfl⟩ := List.mem_map.1 htype
      obtain ⟨q, -, rfl⟩ := List.mem_map.1 hp
      exact d.has_coerce _
  | script s =>
    obtain rfl := List.mem_singleton.1 hy
    refine ⟨rfl, fun type htype => ?_⟩
    obtain ⟨p, hp, rfl⟩ := List.mem_map.1 htype
    obtain ⟨q, -, rfl⟩ := List.mem_map.1 hp
    exact d.has_coerce _
  | _ =>
    obtain rfl := List.mem_singleton.1 hy
    exact ⟨rfl, nofun⟩

end Declaration

theorem Entry.declaration_mem_lower {d : Dialect} {e x : Entry} (hx : x ∈ e.lower d) :
    x.declaration ∈ e.declaration.lower d := by
  unfold lower at hx
  split at hx
  · cases hx
  · have hmap := List.mem_map_of_mem (f := declaration) hx
    rwa [map_declaration_documentFirst] at hmap

theorem Entry.isPlain_of_mem_lower {d : Dialect} {e x : Entry} (hx : x ∈ e.lower d) :
    x.IsPlain d := by
  obtain ⟨hhidden, hprivate⟩ := visible_of_mem_lower hx
  obtain ⟨hplain, htypes⟩ := Declaration.isPlain_of_mem_lower (declaration_mem_lower hx)
  exact ⟨hhidden, hprivate, hplain, htypes⟩

namespace Tree

mutual

theorem everyLevel_lower (d : Dialect) (t : Tree) : (t.lower d).EveryLevel (IsPlain d) := by
  obtain ⟨notes, entries, children⟩ := t
  rw [lower]
  refine ⟨fun e he => ?_, everyLevelIn_lowerAll d children⟩
  obtain ⟨_, -, he⟩ := List.mem_flatMap.1 he
  exact Entry.isPlain_of_mem_lower he

theorem everyLevelIn_lowerAll (d : Dialect) (children : List (NamespaceKey × Tree)) :
    EveryLevelIn (IsPlain d) (lowerAll d children) := by
  cases children with
  | nil => trivial
  | cons c rest =>
    rw [lowerAll]
    exact ⟨everyLevel_lower d c.2, everyLevelIn_lowerAll d rest⟩

end

/-- **A lowered tree is in the plain dialect**, at every level; and what replaces a type depends
only on that type in lower case. -/
theorem isPlain_lower (d : Dialect) (t : Tree) :
    (t.lower d).EveryLevel (IsPlain d) ∧ Function.FactorsThrough d.coerce Text.lowerWord :=
  ⟨everyLevel_lower d t, fun _ _ h => d.coerce_of_sameWord (Text.sameWord_of_lowerWord_eq h)⟩

end Tree

end AcsOutline
