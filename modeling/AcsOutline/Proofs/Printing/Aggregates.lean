import AcsOutline.Proofs.Printing.Variables

/-!
# Printed enums, structs and type definitions

Enums and structs are read member by member.  Behind a struct the names of its instances are read
up to the semicolon.
-/

namespace AcsOutline

open Printing

namespace Grammar

open Reading

variable {kind : TokenKind} {text u v w : String} {us ws : List String} {b : List Char}
  {rs : List String} {more isPrivate : Bool}

theorem gives_aggregateHead (word : Keyword) (hne : word ≠ .privateWord)
    (hwords : flag "private" isPrivate ++ word.spelling :: ws = u :: us) :
    (aggregateHead word).Gives ⟨u, us, b, rs⟩ (some isPrivate) ⟨word.spelling, ws, b, rs⟩ := by
  intro s h
  obtain ⟨hprivate, hat⟩ := h.unmodified hwords (spells_keyword word) (by simpa using hne)
  refine ⟨s.unmodified, ?_, hat⟩
  rw [aggregateHead_eq, if_pos (hat.shows (spells_keyword word)).kind_eq, hprivate]

/-! ## Enums -/

theorem gives_memberValue {value : Option Value} (hvalue : ∀ x ∈ value, IsReadable x)
    (hw : Spells w kind text) (hends : Value.endsValue kind = true)
    (hne : kind ≠ .equals) :
    memberValue.Gives ⟨v, valued value ++ w :: ws, b, rs⟩ value ⟨w, ws, b, rs⟩ := by
  cases value with
  | none =>
    refine (finds_next hw).bind fun t ht => ?_
    rw [if_neg (ht.kind_ne hne)]
    exact gives_pure _ _
  | some x =>
    refine (finds_next spells_equals).bind fun t ht => ?_
    rw [if_pos ht.kind_eq]
    exact (gives_advance_value (hvalue x rfl).legible hw hends).bind_bind (gives_pure _ _)

theorem gives_enumMember {m : EnumMember} (hm : m.IsNormal)
    (hmark : Parts "\x7d" .rbrace w kind more) :
    enumMember.Gives ⟨v, m.words ++ w :: ws, b, rs⟩ ([m], more) ⟨w, ws, b, rs⟩ := by
  have hw := hmark.spells spells_rbrace
  obtain ⟨hends, hequals⟩ : Value.endsValue kind = true ∧ kind ≠ .equals := by
    cases hmark <;> decide
  refine (finds_next hm.name.spells).bind fun t ht => ?_
  rw [if_neg (ht.kind_ne (by decide))]
  refine (finds_check ht _).bind fun name hname =>
    (gives_memberValue hm.value hw hends hequals).bind
      ((finds_current hw).bind fun after hafter => ?_)
  rw [hafter.kind_eq, hname.text_eq]
  cases hmark <;> exact gives_pure _ _

theorem gives_enumMembers {members : List EnumMember} (h : ∀ m ∈ members, m.IsNormal) :
    (gather enumMember consumes_enumMember).Gives
      ⟨v, listed (members.map EnumMember.words) ++ "\x7d" :: ws, b, rs⟩ members ⟨"\x7d", ws, b, rs⟩ := by
  cases members with
  | nil =>
    have hround : enumMember.Gives ⟨v, "\x7d" :: ws, b, rs⟩ ([], false) ⟨"\x7d", ws, b, rs⟩ :=
      (finds_next spells_rbrace).bind fun t ht => by
        rw [if_pos ht.kind_eq]
        exact gives_pure _ _
    exact Gives.gather_done consumes_enumMember hround
  | cons m members =>
    exact gives_gather consumes_enumMember (List.cons_ne_nil m members)
      fun x hx _ _ _ hmark _ _ _ => gives_enumMember (h x hx) hmark

/-- The type of an enum stands behind a colon. -/
theorem gives_takeUnderlying {type : Option String} (htype : ∀ t ∈ type, IsType t)
    (hwords : marked ":" type ++ "\x7b" :: ws = w :: us) :
    takeUnderlying.Gives ⟨w, us, b, rs⟩ type ⟨"\x7b", ws, b, rs⟩ := by
  cases type with
  | none =>
    obtain ⟨rfl, rfl⟩ := List.cons.inj hwords
    refine (finds_current spells_lbrace).bind fun t ht => ?_
    rw [if_neg (ht.kind_ne (by decide))]
    exact gives_pure _ _
  | some type =>
    obtain ⟨rfl, rfl⟩ := List.cons.inj hwords
    have htype := htype type rfl
    refine (finds_current spells_colon).bind fun t ht => ?_
    rw [if_pos ht.kind_eq]
    refine (finds_expect htype.spells).bind fun t ht => (finds_next spells_lbrace).bind fun _ _ => ?_
    rw [typeText_eq htype ht]
    exact gives_pure _ _

theorem gives_enum {e : EnumDecl} (he : e.IsNormal) (hwords : e.words = u :: us) :
    enumDeclaration.Gives ⟨u, us, b, rs⟩ (some (.enum e)) ⟨";", [], b, rs⟩ := by
  refine (gives_aggregateHead .enumWord (by decide) hwords).bind ?_
  -- the name ends at the colon or at the brace
  obtain ⟨w, kind, ws, hw, hspells, hne⟩ : ∃ w kind ws, marked ":" e.underlying ++
      "\x7b" :: (listed (e.members.map EnumMember.words) ++ ["\x7d", ";"]) = w :: ws ∧
        Spells w kind w ∧ kind ≠ .symbol := by
    cases e.underlying with
    | none => exact ⟨"\x7b", .lbrace, _, rfl, spells_lbrace, by decide⟩
    | some type => exact ⟨":", .colon, _, rfl, spells_colon, by decide⟩
  have hname : (Reading.next >>= fun _ => takeName).Gives
      ⟨Keyword.enumWord.spelling, e.name.toList ++ w :: ws, b, rs⟩ e.name ⟨w, ws, b, rs⟩ :=
    gives_takeName he.name hspells hne
  rw [← hw] at hname
  refine hname.bind_bind ((gives_takeUnderlying he.underlying hw).bind ?_)
  refine (finds_current spells_lbrace).bind fun t ht => (finds_check ht _).bind fun _ _ => ?_
  exact (gives_enumMembers he.members).bind (gives_takeSemicolon.bind (gives_pure _ _))

/-! ## Structs -/

theorem gives_memberSize {size : Option String} (hsize : ∀ s ∈ size, IsSize s)
    (hw : Spells w kind text) (hne : kind ≠ .lbracket) :
    memberSize.Gives ⟨v, bracketed size ++ w :: ws, b, rs⟩ size ⟨w, ws, b, rs⟩ := by
  cases size with
  | none =>
    refine (finds_next hw).bind fun t ht => ?_
    rw [if_neg (ht.kind_ne hne)]
    exact gives_pure _ _
  | some size =>
    refine (finds_next spells_lbracket).bind fun t ht => ?_
    rw [if_pos ht.kind_eq]
    have hbracket : bracketSize.Gives ⟨"[", size :: "]" :: w :: ws, b, rs⟩ (some size)
      ⟨"]", w :: ws, b, rs⟩ := gives_bracketSize hsize
    exact hbracket.bind ((finds_next hw).bind fun _ _ => gives_pure _ _)

theorem gives_structName {m : StructMember} (hm : m.IsNormal) :
    (structName m.type).Gives ⟨v, m.name :: (bracketed m.size ++ ";" :: ws), b, rs⟩ ([m], false)
      ⟨";", ws, b, rs⟩ := by
  refine (finds_expect hm.name.spells).bind fun name hname =>
    (gives_memberSize hm.size spells_semicolon (by decide)).bind
      ((finds_current spells_semicolon).bind fun after hafter => ?_)
  rw [hafter.kind_eq, hname.text_eq]
  exact gives_pure _ _

theorem gives_structMember {m : StructMember} (hm : m.IsNormal) :
    structMembers.Gives ⟨v, m.words ++ ws, b, rs⟩ ([m], true) ⟨";", ws, b, rs⟩ := by
  have hwords : m.words ++ ws = m.type :: m.name :: (bracketed m.size ++ ";" :: ws) := by
    simp [StructMember.words]
  rw [hwords]
  refine (finds_next hm.type.spells).bind fun t ht => ?_
  rw [if_neg (ht.kind_ne (by decide))]
  refine (finds_check ht _).bind fun type htype => ?_
  have htext := typeText_eq hm.type htype
  obtain ⟨_, name, size⟩ := m
  subst htext
  exact ((gives_structName hm).gather_done (consumes_structName _)).bind (gives_pure _ _)

/-- Struct members are read up to the closing brace. -/
theorem gives_structMembers {members : List StructMember} (h : ∀ m ∈ members, m.IsNormal) :
    (gather structMembers consumes_structMembers).Gives
      ⟨v, members.flatMap StructMember.words ++ "\x7d" :: ws, b, rs⟩ members ⟨"\x7d", ws, b, rs⟩ := by
  suffices hfrom : ∀ found v, (gatherFrom structMembers consumes_structMembers found).Gives
      ⟨v, members.flatMap StructMember.words ++ "\x7d" :: ws, b, rs⟩ (found.reverse ++ members)
      ⟨"\x7d", ws, b, rs⟩ from hfrom [] v
  induction members with
  | nil =>
    intro found v
    have hround : structMembers.Gives ⟨v, "\x7d" :: ws, b, rs⟩ ([], false) ⟨"\x7d", ws, b, rs⟩ :=
      (finds_next spells_rbrace).bind fun t ht => by
        rw [if_pos ht.kind_eq]
        exact gives_pure _ _
    exact hround.gatherFrom_done
  | cons m members ih =>
    intro found v
    have hrest := ih (fun x hx => h x (List.mem_cons_of_mem m hx)) (m :: found) ";"
    rw [List.reverse_cons, List.append_assoc, List.singleton_append] at hrest
    rw [List.flatMap_cons, List.append_assoc]
    exact (gives_structMember (h m List.mem_cons_self)).gatherFrom_again hrest

theorem gives_instanceName {name : String} (hname : IsName name)
    (hmark : Parts ";" .semicolon w kind more) :
    instanceName.Gives ⟨v, [name] ++ w :: ws, b, rs⟩ ([name], more) ⟨w, ws, b, rs⟩ := by
  refine (finds_expect hname.spells).bind fun t ht =>
    (finds_next (hmark.spells spells_semicolon)).bind fun after hafter => ?_
  rw [hafter.kind_eq, ht.text_eq]
  cases hmark <;> exact gives_pure _ _

theorem gives_structInstances {names : List String} (h : ∀ name ∈ names, IsName name) :
    structInstances.Gives ⟨v, listed (names.map fun name => [name]) ++ [";"], b, rs⟩ names
      ⟨";", [], b, rs⟩ := by
  cases names with
  | nil =>
    refine gives_peekTwo_bind_first spells_semicolon fun t t' ht => ?_
    dsimp only
    rw [if_pos ht.kind_eq]
    exact (finds_advance spells_semicolon).bind fun _ _ => gives_pure _ _
  | cons name names =>
    obtain ⟨mark, words, hwords, hmark⟩ :=
      exists_listed_cons [name] (names.map fun name => [name]) ";" []
    obtain ⟨kind, hspells, hkind⟩ : ∃ kind, Spells mark kind mark ∧
        (kind = .comma ∨ kind = .semicolon) := by
      rcases hmark with ⟨rfl, -⟩ | ⟨rfl, -⟩
      · exact ⟨_, spells_semicolon, Or.inr rfl⟩
      · exact ⟨_, spells_comma, Or.inl rfl⟩
    have hgather : (Reading.gather instanceName consumes_instanceName).Gives
        ⟨v, listed ((name :: names).map fun name => [name]) ++ [";"], b, rs⟩ (name :: names)
        ⟨";", [], b, rs⟩ :=
      gives_gather consumes_instanceName (List.cons_ne_nil name names)
        fun x hx _ _ _ hmark _ _ _ => gives_instanceName (h x hx) hmark
    have hlisted : listed ((name :: names).map fun name => [name]) ++ [";"] =
        name :: mark :: words := hwords
    rw [hlisted] at hgather ⊢
    refine gives_peekTwo_bind (h name List.mem_cons_self).spells hspells fun t t' ht ht' => ?_
    dsimp only
    rw [if_neg (ht.kind_ne (by decide)), if_pos ⟨ht.kind_eq, by rw [ht'.kind_eq]; exact hkind⟩]
    exact hgather

theorem gives_struct {d : StructDecl} (hd : d.IsNormal) (hwords : d.words = u :: us) :
    structDeclaration.Gives ⟨u, us, b, rs⟩ (some (.struct d)) ⟨";", [], b, rs⟩ := by
  refine (gives_aggregateHead .structWord (by decide) hwords).bind ?_
  refine (gives_takeName hd.name spells_lbrace (by decide)).bind_bind ?_
  refine (finds_current spells_lbrace).bind fun t ht => (finds_check ht _).bind fun _ _ => ?_
  exact (gives_structMembers hd.members).bind
    ((gives_structInstances hd.instances).bind (gives_pure _ _))

/-! ## Type definitions -/

theorem gives_endTypedef (t : Typedef) :
    (endTypedef t).Gives ⟨v, [";"], b, rs⟩ (.typedef t) ⟨";", [], b, rs⟩ :=
  (finds_expect spells_semicolon).bind fun _ _ => gives_pure _ _

theorem gives_bareType (type : String) (hw : Spells w kind text) :
    (bareType type).Gives ⟨v, w :: ws, b, rs⟩ type ⟨w, ws, b, rs⟩ :=
  (finds_next hw).bind fun _ _ => gives_pure _ _

theorem gives_typedefBody {t : Typedef} (ht : t.IsNormal) :
    typedefBody.Gives ⟨v, t.words, b, rs⟩ (.typedef t) ⟨";", [], b, rs⟩ := by
  cases t with
  | forType type name size =>
    obtain ⟨htype, hname, hsize⟩ := ht
    refine (finds_expect htype.spells).bind fun t ht =>
      (finds_expect hname.spells).bind fun n hn => ?_
    rw [typeText_eq htype ht, hn.text_eq]
    cases size with
    | none =>
      refine (finds_next spells_semicolon).bind fun after hafter => ?_
      rw [hafter.kind_eq]
      exact gives_pure _ _
    | some size =>
      refine (finds_next spells_lbracket).bind fun after hafter => ?_
      rw [hafter.kind_eq]
      have hbracket : bracketSize.Gives ⟨"[", size :: "]" :: [";"], b, rs⟩ (some size)
        ⟨"]", [";"], b, rs⟩ := gives_bracketSize hsize
      exact hbracket.bind (gives_endTypedef _)
  | forFunction returnType name types =>
    obtain ⟨htype, hname, htypes, hvoid⟩ := ht
    refine (finds_expect htype.spells).bind fun t ht =>
      (finds_expect hname.spells).bind fun n hn => ?_
    rw [typeText_eq htype ht, hn.text_eq]
    refine (finds_next spells_lparen).bind fun after hafter => ?_
    rw [hafter.kind_eq]
    have hparameters : (parameters bareType within_bareType).Gives
        ⟨"(", listed (types.map fun type => [type]) ++ ")" :: [";"], b, rs⟩ types
        ⟨")", [";"], b, rs⟩ :=
      gives_parameters within_bareType id (fun _ => []) htypes (fun _ _ => Or.inl rfl)
        (fun type hone _ hlone => hvoid (hone.trans (congrArg (fun t => [t]) hlone)))
        (fun type _ _ _ _ hmark _ _ => gives_bareType type (hmark.spells spells_rparen))
    exact hparameters.bind (gives_endTypedef _)

end Grammar

end AcsOutline
