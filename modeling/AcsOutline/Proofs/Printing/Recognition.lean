import AcsOutline.Proofs.Grammar.Choice
import AcsOutline.Proofs.Printing.Callables

/-!
# Printed declarations are recognized

The words that a declaration begins with tell its form (`Scanner.At.form?_eq`), and the form reads
the declaration back from them (`Form.Ends`).  The two lines of a namespace are recognized in the
same way, and open and leave it.
-/

namespace AcsOutline

open Printing

/-- The form that a declaration is printed in. -/
def Declaration.form : Declaration → Form
  | library _ => .library
  | importFile _ => .importFile
  | includeFile _ => .includeFile
  | define _ => .define
  | libDefine _ => .libDefine
  | worldVariable _ => .worldVariable
  | globalVariable _ => .globalVariable
  | enum _ => .enum
  | struct _ => .struct
  | typedef _ => .typedef
  | variableGroup _ => .variableGroup
  | script _ => .script
  | function _ => .function

section Recognition

variable {s : Scanner} {kind : TokenKind} {text u v w : String} {us ws : List String}
  {b : List Char} {rs : List String} {d : Declaration}

/-! ## The form of a declaration -/

theorem Form.isName_of_mem_directives {word : String} {form : Form}
    (h : (word, form) ∈ directives) : IsName word := by
  simp only [directives, List.mem_cons, Prod.mk.injEq, List.not_mem_nil, or_false] at h
  rcases h with ⟨rfl, -⟩ | ⟨rfl, -⟩ | ⟨rfl, -⟩ | ⟨rfl, -⟩ | ⟨rfl, -⟩ <;>
    exact ⟨.of_check (by decide), by decide⟩

namespace Scanner.At

theorem form?_of_directive {word : String} {form : Form} (h : s.At ⟨"#", word :: ws, b, rs⟩)
    (hmem : (word, form) ∈ Form.directives) : s.form? = some form := by
  have hword := Form.isName_of_mem_directives hmem
  rw [form?, (h.shows spells_hash).kind_eq]
  exact Token.directive?_of_isWord hmem ((h.next hword.spells).shows hword.spells).isWord

theorem kind_eq {word : Keyword} (h : s.At ⟨word.spelling, ws, b, rs⟩) :
    s.token.kind = .keyword word :=
  (h.shows (spells_keyword word)).kind_eq

theorem unmodified_kind_eq {word : Keyword} {isPrivate : Bool} (h : s.At ⟨u, us, b, rs⟩)
    (hne : word ≠ .privateWord)
    (hwords : flag "private" isPrivate ++ word.spelling :: ws = u :: us) :
    s.unmodified.token.kind = .keyword word :=
  (h.unmodified hwords (spells_keyword word) (by simpa using hne)).2.kind_eq

/-- **The first words of a declaration tell its form.** -/
theorem form?_eq (h : s.At ⟨u, us, b, rs⟩) (hd : d.IsNormal) (hwords : d.words = u :: us) :
    s.form? = some d.form := by
  cases d with
  | library name | importFile name | define d | libDefine d =>
    obtain ⟨rfl, rfl⟩ := List.cons.inj hwords
    exact h.form?_of_directive (by simp [Form.directives, Declaration.form])
  | includeFile path => exact hd.elim
  | worldVariable x =>
    obtain ⟨rfl, rfl⟩ := List.cons.inj hwords
    have hkind : s.token.kind = .keyword .worldWord := h.kind_eq
    rw [form?, hkind]
    rfl
  | globalVariable x =>
    obtain ⟨rfl, rfl⟩ := List.cons.inj hwords
    have hkind : s.token.kind = .keyword .globalWord := h.kind_eq
    rw [form?, hkind]
    rfl
  | enum e =>
    have hkind : s.unmodified.token.kind = .keyword .enumWord :=
      h.unmodified_kind_eq (by decide) hwords
    exact form?_eq_modifiedForm? (by rw [modifiedForm?, hkind]; rfl)
  | struct d =>
    have hkind : s.unmodified.token.kind = .keyword .structWord :=
      h.unmodified_kind_eq (by decide) hwords
    exact form?_eq_modifiedForm? (by rw [modifiedForm?, hkind]; rfl)
  | typedef t =>
    obtain ⟨rfl, rfl⟩ := List.cons.inj hwords
    have hkind : s.token.kind = .keyword .typedefWord := h.kind_eq
    rw [form?, hkind]
    rfl
  | variableGroup d =>
    obtain ⟨name, w, kind, ws, hitems, hname, hw, hne⟩ := Grammar.exists_second_word hd
    have hwords : flag "private" d.isPrivate ++ d.type :: name :: w :: ws = u :: us := by
      rw [← hitems]
      exact hwords
    obtain ⟨-, hat⟩ := h.unmodified hwords hd.type.spells (by decide)
    refine form?_eq_modifiedForm? ?_
    rw [modifiedForm?, (hat.shows hd.type.spells).kind_eq, hat.startsFunction_eq hname hw hne]
    rfl
  | script d =>
    obtain ⟨rfl, rfl⟩ := List.cons.inj hwords
    have hkind : s.token.kind = .keyword .scriptWord := h.kind_eq
    rw [form?, hkind]
    rfl
  | function f =>
    have hkind : s.unmodified.token.kind = .keyword .functionWord :=
      h.unmodified_kind_eq (by decide) hwords
    exact form?_eq_modifiedForm? (by rw [modifiedForm?, hkind]; rfl)

end Scanner.At

/-! ## Declarations -/

theorem Grammar.gives_keyword {word : Keyword} {p : Reading (Option Declaration)} {Q : Place}
    (hp : p.Gives ⟨word.spelling, ws, b, rs⟩ (some d) Q) :
    Reading.Gives (do if (← Reading.current).kind = .keyword word then p else return none)
      ⟨word.spelling, ws, b, rs⟩ (some d) Q :=
  (Reading.finds_current (spells_keyword word)).bind fun t ht => by
    rw [if_pos ht.kind_eq]
    exact hp

/-- **The form of a declaration reads it back** from its words. -/
theorem Declaration.exists_reading (hd : d.IsNormal) (hwords : d.words = u :: us) :
    ∃ p : Reading (Option Declaration), d.form.attempt = Form.ofReading p ∧
      p.Ends ⟨u, us, b, rs⟩ (some d) (rs ++ d.remarks) := by
  have hplain : ∀ {p : Reading (Option Declaration)}, p.Ends ⟨u, us, b, rs⟩ (some d) rs →
      d.remarks = [] → p.Ends ⟨u, us, b, rs⟩ (some d) (rs ++ d.remarks) := by
    intro p hp hnone
    rwa [hnone, List.append_nil]
  have hname : ∀ {word : String} (form : Form), (word, form) ∈ Form.directives → IsName word :=
    fun _ h => Form.isName_of_mem_directives h
  cases d with
  | library name =>
    obtain ⟨rfl, rfl⟩ := List.cons.inj hwords
    have hlibrary : Grammar.libraryDirective.Ends ⟨"#", ["library", quote name], b, rs⟩
        (some (.library (Text.uppercase name))) rs :=
      Grammar.ends_quotedDirective (hname .library (by decide)) hd.1
    rw [hd.2] at hlibrary
    exact ⟨_, rfl, hplain hlibrary rfl⟩
  | importFile path =>
    obtain ⟨rfl, rfl⟩ := List.cons.inj hwords
    have himport : Grammar.importDirective.Ends ⟨"#", ["import", quote path], b, rs⟩
        (some (.importFile (Text.lowercase path))) rs :=
      Grammar.ends_quotedDirective (hname .importFile (by decide)) hd.1
    rw [hd.2] at himport
    exact ⟨_, rfl, hplain himport rfl⟩
  | includeFile path => exact hd.elim
  | define d =>
    obtain ⟨rfl, rfl⟩ := List.cons.inj hwords
    exact ⟨_, rfl, hplain (Grammar.ends_defineDirective (hname .define (by decide)) hd) rfl⟩
  | libDefine d =>
    obtain ⟨rfl, rfl⟩ := List.cons.inj hwords
    exact ⟨_, rfl, hplain (Grammar.ends_defineDirective (hname .libDefine (by decide)) hd) rfl⟩
  | worldVariable x =>
    obtain ⟨rfl, rfl⟩ := List.cons.inj hwords
    exact ⟨_, rfl, hplain
      (Grammar.gives_keyword ((Grammar.gives_indexedVariable hd).map _)).ends rfl⟩
  | globalVariable x =>
    obtain ⟨rfl, rfl⟩ := List.cons.inj hwords
    exact ⟨_, rfl, hplain
      (Grammar.gives_keyword ((Grammar.gives_indexedVariable hd).map _)).ends rfl⟩
  | enum e => exact ⟨_, rfl, hplain (Grammar.gives_enum hd hwords).ends rfl⟩
  | struct d => exact ⟨_, rfl, hplain (Grammar.gives_struct hd hwords).ends rfl⟩
  | typedef t =>
    obtain ⟨rfl, rfl⟩ := List.cons.inj hwords
    exact ⟨_, rfl, hplain (Grammar.gives_keyword ((Grammar.gives_typedefBody hd).map _)).ends rfl⟩
  | variableGroup d => exact ⟨_, rfl, (Grammar.gives_variablesDeclaration hd hwords).ends⟩
  | script d =>
    obtain ⟨rfl, rfl⟩ := List.cons.inj hwords
    exact ⟨_, rfl, hplain (Grammar.gives_script hd).ends rfl⟩
  | function f => exact ⟨_, rfl, hplain (Grammar.gives_function hd hwords).ends rfl⟩

/-- A declaration begins with a word. -/
theorem Declaration.begins (hd : d.IsNormal) : Begins d.words := by
  have hprivate := spells_keyword .privateWord
  cases d with
  | library | importFile | define | libDefine => exact .of_spells spells_hash _
  | includeFile path => exact hd.elim
  | worldVariable x => exact .of_spells (spells_keyword .worldWord) _
  | globalVariable x => exact .of_spells (spells_keyword .globalWord) _
  | enum e => exact (Begins.of_spells (spells_keyword .enumWord) _).flag hprivate e.isPrivate
  | struct d => exact (Begins.of_spells (spells_keyword .structWord) _).flag hprivate d.isPrivate
  | typedef t => exact .of_spells (spells_keyword .typedefWord) _
  | variableGroup d => exact (Begins.of_spells hd.type.spells _).flag hprivate d.isPrivate
  | script d => exact .of_spells (spells_keyword .scriptWord) _
  | function f =>
    exact (Begins.of_spells (spells_keyword .functionWord) _).flag hprivate f.isPrivate

/-- **A printed declaration is recognized**, up to its end and with its comments. -/
theorem exists_recognize (hd : d.IsNormal) (hwords : d.words = u :: us)
    (hs : s.At ⟨u, us, b, rs⟩) (builder : Builder) :
    ∃ t, recognize ⟨s, builder⟩ = .ok (some d) ⟨t, builder⟩ ∧ t.Below b (rs ++ d.remarks) := by
  obtain ⟨p, hattempt, hp⟩ : ∃ p : Reading (Option Declaration),
      d.form.attempt = Form.ofReading p ∧ p.Ends ⟨u, us, b, rs⟩ (some d) (rs ++ d.remarks) :=
    Declaration.exists_reading hd hwords
  obtain ⟨t, ht, hbelow⟩ := hp hs
  refine ⟨t, recognize_of_matched (hs.form?_eq hd hwords) ?_, hbelow⟩
  rw [hattempt]
  exact Form.ofReading_eq_matched ht

/-! ## Namespaces -/

theorem NamespaceKey.begins (key : NamespaceKey) : Begins key.words :=
  (Begins.of_spells (spells_keyword .namespaceWord) _).flag (spells_keyword .strictWord) key.isStrict

theorem exists_recognize_open {key : NamespaceKey} (hname : ∀ n ∈ key.name, IsName n)
    (hwords : key.words = u :: us) (hs : s.At ⟨u, us, b, rs⟩) (builder : Builder) :
    ∃ t, recognize ⟨s, builder⟩ = .ok none ⟨t, builder.enter key⟩ ∧ t.Below b rs := by
  obtain ⟨t, ht, hat⟩ := Grammar.gives_namespaceHead hname hwords hs
  have hform : s.form? = some .namespaceOpen := by
    obtain ⟨isStrict, name⟩ := key
    cases isStrict with
    | false =>
      obtain ⟨rfl, rfl⟩ := List.cons.inj hwords
      have hkind : s.token.kind = .keyword .namespaceWord := hs.kind_eq
      rw [Scanner.form?, hkind]
    | true =>
      obtain ⟨rfl, rfl⟩ := List.cons.inj hwords
      have hkind : s.token.kind = .keyword .strictWord := hs.kind_eq
      rw [Scanner.form?, hkind]
  refine ⟨t, recognize_of_matched hform ?_, hat.below⟩
  show Form.openNamespaces _ = _
  rw [Form.openNamespaces, ht]
  rfl

theorem exists_recognize_close (hs : s.At ⟨"\x7d", [], b, rs⟩) {builder left : Builder}
    (hleave : builder.leave? = some left) :
    recognize ⟨s, builder⟩ = .ok none ⟨s, left⟩ ∧ s.Below b rs := by
  have hkind := (hs.shows spells_rbrace).kind_eq
  have hform : s.form? = some .namespaceClose := by rw [Scanner.form?, hkind]
  refine ⟨recognize_of_matched hform ?_, hs.below⟩
  show Form.closeNamespace _ = _
  rw [Form.closeNamespace, if_pos hkind, hleave]

end Recognition

end AcsOutline
