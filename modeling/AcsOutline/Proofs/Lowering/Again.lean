import AcsOutline.Proofs.Lowering.Plain
import AcsOutline.Proofs.Value.Residues

/-!
# Lowering again

A tree that is lowered already is lowered once more.  If the default type is one that coercion
keeps (`Dialect.KeepsDefault`), the types stay as they are, no declaration is left out and none is
expanded: nothing but casts in values is left out (`Tree.lower_lower_eq`).

There are none to leave out where no value that is kept has a group that leaves a cast
(`Tree.lower_again`).  A value like `((int) raw)` has one: its group loses the cast to `int` in the
first pass, and in the second one it is a cast itself.
-/

namespace AcsOutline

/-! ## Types -/

namespace Dialect

/-- The default type is spelled as the first allowed type that is the same word, if there is
one. -/
def KeepsDefault (d : Dialect) : Prop :=
  ∀ type ∈ d.allowedTypes.find? (Text.sameWord · d.defaultType), type = d.defaultType

variable {d : Dialect}

theorem coerce_defaultType (h : d.KeepsDefault) : d.coerce d.defaultType = d.defaultType := by
  rw [coerce]
  cases hfind : d.allowedTypes.find? (Text.sameWord · d.defaultType) with
  | none => rfl
  | some type => exact h type hfind

/-- A type that was coerced is kept. -/
theorem coerce_coerce (h : d.KeepsDefault) (type : String) :
    d.coerce (d.coerce type) = d.coerce type := by
  cases hfind : d.allowedTypes.find? (Text.sameWord · type) with
  | none =>
    have hcoerce : d.coerce type = d.defaultType := by rw [coerce, hfind]; rfl
    rw [hcoerce, coerce_defaultType h]
  | some allowed =>
    have hcoerce : d.coerce type = allowed := by rw [coerce, hfind]; rfl
    have hsame : Text.sameWord allowed type = true := by simpa using List.find?_some hfind
    rw [hcoerce, d.coerce_of_sameWord hsame, hcoerce]

end Dialect

/-! ## Values -/

/-- The value of a variable, if it has one that is not in braces. -/
def Variable.value? : Variable → Option Value
  | scalar _ value => value
  | array _ _ _ | record _ _ => none

/-- A variable with another value. -/
def Variable.mapValue (f : Value → Value) : Variable → Variable
  | scalar name value => scalar name (value.map f)
  | array name size initializer => array name size initializer
  | record name values => record name values

namespace Declaration

/-- The values in a declaration: those of defines, of the members of enums, and of variables. -/
def values : Declaration → List Value
  | define x | libDefine x => [x.value]
  | enum e => e.members.filterMap (·.value)
  | variableGroup v => v.items.filterMap Variable.value?
  | _ => []

/-- A declaration with other values. -/
def mapValues (f : Value → Value) : Declaration → Declaration
  | define x => define { x with value := f x.value }
  | libDefine x => libDefine { x with value := f x.value }
  | enum e => enum { e with members := e.members.map fun m => { m with value := m.value.map f } }
  | variableGroup v => variableGroup { v with items := v.items.map (Variable.mapValue f) }
  | x => x

end Declaration

/-- The values of a declaration that lowering keeps: of one that is hidden or private, none. -/
def Entry.keptValues (e : Entry) : List Value :=
  if e.isHidden || e.declaration.isPrivate then [] else e.declaration.values

/-- A declaration with other values, on its line and with its documentation. -/
def Entry.mapValues (f : Value → Value) (e : Entry) : Entry :=
  { e with declaration := e.declaration.mapValues f }

namespace Tree

/-- The values of a level. -/
def values (t : Tree) : List Value :=
  t.entries.toList.flatMap (·.declaration.values)

/-- The values of a level that lowering keeps. -/
def keptValues (t : Tree) : List Value :=
  t.entries.toList.flatMap Entry.keptValues

mutual

/-- A tree with other values, on all levels. -/
def mapValues (f : Value → Value) : Tree → Tree
  | ⟨notes, entries, children⟩ => ⟨notes, entries.map (Entry.mapValues f), mapValuesIn f children⟩

/-- Namespaces with other values. -/
def mapValuesIn (f : Value → Value) : List (NamespaceKey × Tree) → List (NamespaceKey × Tree)
  | [] => []
  | (key, t) :: rest => (key, t.mapValues f) :: mapValuesIn f rest

end

end Tree

/-- A list is mapped to itself if each of its members is. -/
theorem map_eq_self_iff {α : Type} {f : α → α} {as : List α} :
    as.map f = as ↔ ∀ a ∈ as, f a = a := by
  have h : as.map f = as.map id ↔ ∀ a ∈ as, f a = id a := List.map_eq_map_iff
  rwa [List.map_id] at h

/-! ## Declarations -/

namespace Variable

variable {d : Dialect} {v w : Variable}

theorem lower?_of_lower? (h : v.lower? d = some w) :
    w.lower? d = some (w.mapValue (Value.stripCasts d)) := by
  cases v <;> cases h <;> rfl

theorem value?_of_lower? (h : v.lower? d = some w) :
    w.value? = v.value?.map (Value.stripCasts d) := by
  cases v <;> cases h <;> rfl

theorem value?_of_lower?_eq_none (h : v.lower? d = none) : v.value? = none := by
  cases v with
  | scalar | array => cases h
  | record => rfl

theorem mapValue_eq_self_iff {f : Value → Value} :
    v.mapValue f = v ↔ ∀ x ∈ v.value?, f x = x := by
  cases v with
  | scalar name value => cases value <;> simp [mapValue, value?]
  | array | record => simp [mapValue, value?]

end Variable

namespace Declaration

variable {d : Dialect} {x y : Declaration} {f : Value → Value}

/-- The values of variables are those of the ones that are left, each without its casts. -/
theorem filterMap_value?_lower? (d : Dialect) (items : List Variable) :
    (items.filterMap (Variable.lower? d)).filterMap Variable.value? =
      (items.filterMap Variable.value?).map (Value.stripCasts d) := by
  induction items with
  | nil => rfl
  | cons v items ih =>
    cases h : v.lower? d with
    | none => rw [List.filterMap_cons_none h, ih,
        List.filterMap_cons_none (Variable.value?_of_lower?_eq_none h)]
    | some w =>
      rw [List.filterMap_cons_some h]
      have hvalue := Variable.value?_of_lower? h
      cases hv : v.value? with
      | none =>
        rw [hv] at hvalue
        rw [List.filterMap_cons_none hv, List.filterMap_cons_none hvalue, ih]
      | some x =>
        rw [hv] at hvalue
        rw [List.filterMap_cons_some hv, List.filterMap_cons_some hvalue, ih, List.map_cons]

/-- **What holds of the values that are left** holds of the values that there were, without their
casts.  A member of an enum may become a define with no value. -/
theorem forall_values_lower {P : Value → Prop} (hempty : P .empty) :
    (∀ y ∈ x.lower d, ∀ v ∈ y.values, P v) ↔ ∀ v ∈ x.values, P (v.stripCasts d) := by
  cases x with
  | define x | libDefine x => simp [lower, values, DefineDecl.lower]
  | enum e =>
    simp only [lower, values, List.forall_mem_map, List.mem_filterMap, List.mem_singleton,
      forall_eq, EnumMember.toDefine, forall_exists_index, and_imp]
    constructor
    · intro h v m hm hv
      have hmember := h m hm
      rwa [hv] at hmember
    · intro h m hm
      cases hv : m.value with
      | none => exact hempty
      | some v => exact h v m hm hv
  | variableGroup v =>
    have hvalues := filterMap_value?_lower? d v.items
    by_cases hnone : (v.items.filterMap (Variable.lower? d)).isEmpty = true
    · have hleft : v.lower? d = none := if_pos hnone
      rw [List.isEmpty_iff.1 hnone] at hvalues
      have hempty : v.items.filterMap Variable.value? = [] := List.map_eq_nil_iff.1 hvalues.symm
      simp [lower, hleft, values, hempty]
    · have hleft : v.lower? d = some { v with
          type := d.coerce v.type, items := v.items.filterMap (Variable.lower? d) } := if_neg hnone
      simp only [lower, hleft, Option.toList_some, List.map_singleton, List.mem_singleton,
        forall_eq, values, hvalues, List.forall_mem_map]
  | _ => simp [lower, values]

/-- **A declaration that is left is left as it is**, but for the casts in its values. -/
theorem lower_of_mem_lower (hd : d.KeepsDefault) (hy : y ∈ x.lower d) :
    y.lower d = [y.mapValues (Value.stripCasts d)] := by
  cases x with
  | includeFile | struct | typedef => cases hy
  | enum e =>
    obtain ⟨m, -, rfl⟩ := List.mem_map.1 hy
    rfl
  | variableGroup v =>
    obtain ⟨hsome, rfl⟩ := of_mem_lower_variableGroup hy
    have hitems : ∀ w ∈ v.items.filterMap (Variable.lower? d),
        w.lower? d = some (w.mapValue (Value.stripCasts d)) := by
      intro w hw
      obtain ⟨_, -, hlower⟩ := List.mem_filterMap.1 hw
      exact Variable.lower?_of_lower? hlower
    generalize v.items.filterMap (Variable.lower? d) = items at hsome hitems ⊢
    have hagain : items.filterMap (Variable.lower? d) =
        items.map (Variable.mapValue (Value.stripCasts d)) := by
      rw [List.filterMap_congr hitems, List.filterMap_eq_map']
    show ((VariablesDecl.lower? d _).toList.map variableGroup) = _
    rw [VariablesDecl.lower?]
    dsimp only
    rw [hagain, if_neg (by simpa using hsome), Dialect.coerce_coerce hd]
    rfl
  | function f =>
    obtain rfl := List.mem_singleton.1 hy
    simp [lower, FunctionDecl.lower, mapValues, Dialect.coerce_coerce hd, Function.comp_def]
  | script s =>
    obtain rfl := List.mem_singleton.1 hy
    simp [lower, ScriptDecl.lower, mapValues, Dialect.coerce_coerce hd, Function.comp_def]
  | _ =>
    obtain rfl := List.mem_singleton.1 hy
    rfl

theorem mapValues_eq_self_iff : x.mapValues f = x ↔ ∀ v ∈ x.values, f v = v := by
  cases x with
  | define x | libDefine x => cases x; simp [mapValues, values]
  | enum e =>
    obtain ⟨isPrivate, name, underlying, members⟩ := e
    have hmember : ∀ m : EnumMember,
        { m with value := m.value.map f } = m ↔ ∀ v, m.value = some v → f v = v := by
      rintro ⟨name, value⟩
      cases value <;> simp
    simp only [mapValues, enum.injEq, EnumDecl.mk.injEq, true_and, map_eq_self_iff, hmember, values,
      List.mem_filterMap, forall_exists_index, and_imp]
    exact ⟨fun h v m hm hv => h m hm v hv, fun h m hm v hv => h v m hm hv⟩
  | variableGroup v =>
    obtain ⟨isPrivate, type, items⟩ := v
    simp only [mapValues, variableGroup.injEq, VariablesDecl.mk.injEq, true_and, map_eq_self_iff,
      Variable.mapValue_eq_self_iff, values, List.mem_filterMap, forall_exists_index, and_imp]
    exact ⟨fun h v w hw hv => h w hw v hv, fun h w hw v hv => h v w hw hv⟩
  | _ => simp [mapValues, values]

end Declaration

namespace Entry

variable {d : Dialect} {e x : Entry} {f : Value → Value}

theorem forall_values_lower {P : Value → Prop} (hempty : P .empty) :
    (∀ x ∈ e.lower d, ∀ v ∈ x.declaration.values, P v) ↔
      ∀ v ∈ e.keptValues, P (v.stripCasts d) := by
  unfold lower keptValues
  split
  · simp
  · rw [← Declaration.forall_values_lower hempty]
    have hmap : (documentFirst e.line e.doc (e.declaration.lower d)).map declaration =
        e.declaration.lower d := map_declaration_documentFirst
    rw [← hmap, List.forall_mem_map]
    simp only [hmap]

theorem lower_of_mem_lower (hd : d.KeepsDefault) (hx : x ∈ e.lower d) :
    x.lower d = [x.mapValues (Value.stripCasts d)] := by
  obtain ⟨hhidden, hprivate⟩ := visible_of_mem_lower hx
  have hmem : x.declaration ∈ e.declaration.lower d := declaration_mem_lower hx
  rw [lower, if_neg (by simp [hhidden, hprivate]), Declaration.lower_of_mem_lower hd hmem]
  rfl

theorem mapValues_eq_self_iff : e.mapValues f = e ↔ ∀ v ∈ e.declaration.values, f v = v := by
  obtain ⟨declaration, line, doc⟩ := e
  rw [← Declaration.mapValues_eq_self_iff]
  simp [mapValues]

end Entry

/-! ## Trees -/

namespace Tree

variable {d : Dialect} {f : Value → Value}

/-- What holds of the values that are left at a level. -/
theorem forall_values_lower {P : Value → Prop} (hempty : P .empty) (t : Tree) :
    (∀ v ∈ (t.lower d).values, P v) ↔ ∀ v ∈ t.keptValues, P (v.stripCasts d) := by
  obtain ⟨notes, entries, children⟩ := t
  have hentry := fun e : Entry => Entry.forall_values_lower (d := d) (e := e) hempty
  simp only [lower, values, keptValues, List.mem_flatMap, forall_exists_index, and_imp]
  constructor
  · intro h v e he hv
    exact (hentry e).1 (fun x hx v hv => h v x e he hx hv) v hv
  · intro h v x e he hx hv
    exact (hentry e).2 (fun v hv => h v e he hv) x hx v hv

mutual

/-- What holds of all values that are left. -/
theorem everyLevel_values_lower {P : Value → Prop} (hempty : P .empty) (t : Tree) :
    (t.lower d).EveryLevel (fun u => ∀ v ∈ u.values, P v) ↔
      t.EveryLevel fun u => ∀ v ∈ u.keptValues, P (v.stripCasts d) := by
  have hlevel := forall_values_lower (d := d) hempty t
  obtain ⟨notes, entries, children⟩ := t
  rw [lower] at hlevel ⊢
  exact and_congr hlevel (everyLevelIn_values_lowerAll hempty children)

theorem everyLevelIn_values_lowerAll {P : Value → Prop} (hempty : P .empty)
    (children : List (NamespaceKey × Tree)) :
    EveryLevelIn (fun u => ∀ v ∈ u.values, P v) (lowerAll d children) ↔
      EveryLevelIn (fun u => ∀ v ∈ u.keptValues, P (v.stripCasts d)) children := by
  cases children with
  | nil => exact Iff.rfl
  | cons c rest =>
    rw [lowerAll]
    exact and_congr (everyLevel_values_lower hempty c.2) (everyLevelIn_values_lowerAll hempty rest)

end

mutual

/-- **Lowering again leaves out casts**, and does nothing else. -/
theorem lower_lower_eq (hd : d.KeepsDefault) (t : Tree) :
    (t.lower d).lower d = (t.lower d).mapValues (Value.stripCasts d) := by
  obtain ⟨notes, entries, children⟩ := t
  have hentries : (entries.toList.flatMap (Entry.lower d)).flatMap (Entry.lower d) =
      (entries.toList.flatMap (Entry.lower d)).map (Entry.mapValues (Value.stripCasts d)) := by
    rw [List.map_eq_flatMap]
    refine List.flatMap_congr fun x hx => ?_
    obtain ⟨e, -, hx⟩ := List.mem_flatMap.1 hx
    exact Entry.lower_of_mem_lower hd hx
  rw [lower, lower, mapValues, lowerAll_lowerAll_eq hd children]
  simp only [hentries, List.map_toArray]

theorem lowerAll_lowerAll_eq (hd : d.KeepsDefault) (children : List (NamespaceKey × Tree)) :
    lowerAll d (lowerAll d children) =
      mapValuesIn (Value.stripCasts d) (lowerAll d children) := by
  cases children with
  | nil => rfl
  | cons c rest =>
    rw [lowerAll, lowerAll, mapValuesIn, lower_lower_eq hd c.2, lowerAll_lowerAll_eq hd rest]

end

mutual

/-- A tree keeps its values if each of them is kept. -/
theorem mapValues_eq_self_iff (t : Tree) :
    t.mapValues f = t ↔ t.EveryLevel fun u => ∀ v ∈ u.values, f v = v := by
  obtain ⟨notes, entries, children⟩ := t
  have hentries : entries.map (Entry.mapValues f) = entries ↔
      ∀ v ∈ values ⟨notes, entries, children⟩, f v = v := by
    rw [← Array.toList_inj, Array.toList_map, map_eq_self_iff]
    simp only [Entry.mapValues_eq_self_iff, values, List.mem_flatMap, forall_exists_index, and_imp]
    exact ⟨fun h v e he hv => h e he v hv, fun h e he v hv => h v e he hv⟩
  rw [mapValues, EveryLevel, ← hentries, ← mapValuesIn_eq_self_iff children]
  simp

theorem mapValuesIn_eq_self_iff (children : List (NamespaceKey × Tree)) :
    mapValuesIn f children = children ↔
      EveryLevelIn (fun u => ∀ v ∈ u.values, f v = v) children := by
  cases children with
  | nil => exact iff_of_true rfl trivial
  | cons c rest =>
    obtain ⟨key, t⟩ := c
    rw [mapValuesIn, EveryLevelIn, ← mapValues_eq_self_iff t, ← mapValuesIn_eq_self_iff rest]
    simp

end

/-- **When lowering is done in one pass.**  A lowered tree has no cast in its values, at any level,
and is lowered to itself, exactly where no value that is kept has a group that leaves a cast; and
lowering it again does nothing but to leave out casts. -/
theorem lower_again (d : Dialect) (hd : d.KeepsDefault) (t : Tree) :
    (t.lower d).lower d = (t.lower d).mapValues (Value.stripCasts d) ∧
    ((t.lower d).EveryLevel (fun u => ∀ v ∈ u.values, v.hasCast d = false) ↔
      t.EveryLevel fun u => ∀ v ∈ u.keptValues, v.leavesCast d = false) ∧
    ((t.lower d).lower d = t.lower d ↔
      t.EveryLevel fun u => ∀ v ∈ u.keptValues, v.leavesCast d = false) := by
  have hagain := lower_lower_eq hd t
  have hleft : (t.lower d).EveryLevel (fun u => ∀ v ∈ u.values, v.hasCast d = false) ↔
      t.EveryLevel fun u => ∀ v ∈ u.keptValues, v.leavesCast d = false := by
    have h := everyLevel_values_lower (d := d) (P := fun v => v.hasCast d = false) rfl t
    simpa only [Value.hasCast_stripCasts] using h
  refine ⟨hagain, hleft, ?_⟩
  rw [hagain, mapValues_eq_self_iff, ← hleft]
  simp only [Value.stripCasts_eq_self_iff]

/-- A cast before a group and a cast in it are left out in one pass, on a level below. -/
theorem lower_again_nested :
    let v : Value := ⟨[.group [.leaf .symbol "fixed"],
      .group [.group [.leaf .symbol "INT"], .leaf .symbol "x"]]⟩
    let t : Tree := ⟨#[], #[], [(⟨true, "Game"⟩, ⟨#[], #[⟨.define ⟨"X", v⟩, 1, none⟩], []⟩)]⟩
    Dialect.standard.KeepsDefault ∧ (t.lower .standard).lower .standard = t.lower .standard := by
  intro v t
  have hkeeps : Dialect.standard.KeepsDefault := by
    rintro type ⟨⟩
    rfl
  obtain ⟨-, -, hsame⟩ := lower_again .standard hkeeps t
  exact ⟨hkeeps, hsame.2 ⟨nofun, ⟨by decide, trivial⟩, trivial⟩⟩

/-- The group of `((int) raw)` is left with a leaf that is spelled like a cast type, and a second
pass leaves out that group too. -/
theorem lower_again_operand :
    let v : Value := ⟨[.group [.group [.leaf .symbol "int"], .leaf .symbol "raw"]]⟩
    let t : Tree := ⟨#[], #[⟨.define ⟨"X", v⟩, 1, none⟩], []⟩
    Dialect.standard.KeepsDefault ∧
      (∃ w ∈ (t.lower .standard).values, w.hasCast .standard = true) ∧
      (t.lower .standard).lower .standard ≠ t.lower .standard := by
  intro v t
  refine ⟨?_, by decide, fun hsame => ?_⟩
  · rintro type ⟨⟩
    rfl
  · have hvalues : ((t.lower .standard).lower .standard).values ≠ (t.lower .standard).values := by
      decide
    exact hvalues (congrArg values hsame)

end Tree

end AcsOutline
