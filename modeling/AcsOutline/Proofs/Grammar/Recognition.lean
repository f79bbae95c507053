import AcsOutline.Proofs.Grammar.Forms
import AcsOutline.Proofs.Tree.Moved

/-!
# The same declaration is recognized

The declaration that is recognized in a part of a source is the one that is recognized in the
source (`relates_recognize`): each form matches, declines or fails in both alike, and opens and
leaves the same namespaces.
-/

namespace AcsOutline

/-- Two desks at the same place of a part, with trees that are the same but for what is moved:
`file` is the file that the part is cut from and `move` how far it is moved. -/
structure Desk.Beside (file : String) (move : Move) (m : Shift) (d d' : Desk) : Prop where
  scanner : Scanner.Mirrors m d.scanner d'.scanner
  builder : d.builder.Moved file move d'.builder

/-- What comes of the whole source and of the part is the same: `h` says what is the same about
two faults, and `Shift.Relates` in which cases. -/
def Desk.Relates {α ε : Type} (file : String) (move : Move) (m : Shift) (h : ε → ε → Prop) :
    EStateM.Result ε Desk α → EStateM.Result ε Desk α → Prop
  | .ok a d, r => m.after <:+ d.scanner.rest →
      ∃ d', r = .ok a d' ∧ d.Beside file move m d'
  | .error fault d, r => m.after = [] →
      ∃ fault' d', r = .error fault' d' ∧ h fault fault' ∧ d.Beside file move m d'

/-- A fault of the whole source is that of a part, moved to its place. -/
def Fault.Moved (m : Shift) (fault fault' : Fault) : Prop :=
  fault = fault'.move m.move

/-- A rejection of the whole source is that of a part, with its fault moved to its place. -/
def Rejection.Moved (m : Shift) (r r' : Rejection) : Prop :=
  r.form = r'.form ∧ r.fault.Moved m r'.fault

variable {file : String} {move : Move} {m : Shift} {d d' : Desk}

namespace Form

theorem relates_ofReading {p : Reading (Option Declaration)} (h : d.Beside file move m d')
    (hp : m.Relates id (p d.scanner) (p d'.scanner)) :
    Desk.Relates file move m (Fault.Moved m) (ofReading p d) (ofReading p d') := by
  unfold ofReading
  cases e : p d.scanner with
  | ok a u =>
    rw [e] at hp
    cases a with
    | some declaration =>
      intro hin
      obtain ⟨_, v, hq, rfl, huv⟩ := hp hin
      rw [hq]
      exact ⟨_, rfl, huv, h.builder⟩
    | none =>
      intro hin
      obtain ⟨_, v, hq, rfl, huv⟩ := hp hin
      rw [hq]
      exact ⟨_, rfl, huv, h.builder⟩
  | error fault u =>
    rw [e] at hp
    intro hafter
    obtain ⟨fault', v, hq, hfault, huv⟩ := hp hafter
    rw [hq]
    exact ⟨fault', _, rfl, hfault, huv, h.builder⟩

theorem relates_openNamespaces (h : d.Beside file move m d') :
    Desk.Relates file move m (Fault.Moved m) (openNamespaces d) (openNamespaces d') := by
  have hp := Grammar.agrees_namespaceHead.relates h.scanner
  unfold openNamespaces
  cases e : Grammar.namespaceHead d.scanner with
  | ok head u =>
    rw [e] at hp
    cases head with
    | some head =>
      -- the heads open the same namespaces, and both are complete or have the same fault
      have hhead : m.after <:+ u.rest → ∃ head' v, Grammar.namespaceHead d'.scanner =
          .ok (some head') v ∧ head.keys = head'.keys ∧
          head.fault = head'.fault.map (Fault.move m.move) ∧ Scanner.Mirrors m u v := by
        intro hin
        obtain ⟨_, v, hq, hmove, huv⟩ := hp hin
        obtain ⟨head', rfl, rfl⟩ := Option.map_eq_some_iff.1 hmove.symm
        exact ⟨head', v, hq, rfl, rfl, huv⟩
      obtain ⟨keys, fault⟩ := head
      cases fault with
      | none =>
        intro hin
        obtain ⟨head', v, hq, hkeys, hfault, huv⟩ := hhead hin
        rw [hq]
        dsimp only
        rw [Option.map_eq_none_iff.1 hfault.symm]
        exact ⟨_, rfl, huv, hkeys ▸ h.builder.enterAll keys⟩
      | some fault =>
        intro hafter
        obtain ⟨head', v, hq, hkeys, hfault, huv⟩ := hhead (hafter ▸ List.nil_suffix)
        obtain ⟨fault', hfault', hmove⟩ := Option.map_eq_some_iff.1 hfault.symm
        rw [hq]
        dsimp only
        rw [hfault']
        exact ⟨fault', _, rfl, hmove.symm, huv, hkeys ▸ h.builder.enterAll keys⟩
    | none =>
      intro hin
      obtain ⟨_, v, hq, hmove, huv⟩ := hp hin
      obtain rfl := Option.map_eq_none_iff.1 hmove.symm
      rw [hq]
      exact ⟨_, rfl, huv, h.builder⟩
  | error fault u =>
    rw [e] at hp
    intro hafter
    obtain ⟨fault', v, hq, hfault, huv⟩ := hp hafter
    rw [hq]
    exact ⟨fault', _, rfl, hfault, huv, h.builder⟩

theorem relates_closeNamespace (h : d.Beside file move m d') :
    Desk.Relates file move m (Fault.Moved m) (closeNamespace d) (closeNamespace d') := by
  unfold closeNamespace
  rw [← h.scanner.kind_eq]
  by_cases hbrace : d.scanner.token.kind = .rbrace
  · rw [if_pos hbrace, if_pos hbrace]
    have hleave := h.builder.leave?
    revert hleave
    cases d.builder.leave? with
    | none =>
      cases d'.builder.leave? with
      | none =>
        intro _ _
        refine ⟨_, _, rfl, ?_, h⟩
        rw [h.scanner.token_eq]
        rfl
      | some b' => exact nofun
    | some b =>
      cases d'.builder.leave? with
      | none => exact nofun
      | some b' =>
        rintro ⟨hleave⟩ _
        exact ⟨_, rfl, h.scanner, hleave⟩
  · rw [if_neg hbrace, if_neg hbrace]
    exact fun _ => ⟨_, rfl, h⟩

/-- **A form does the same with a part of a source**, if what tells it from others lies in the
part. -/
theorem relates_attempt (form : Form) (h : d.Beside file move m d')
    (hs : d.scanner.Sees m.after) :
    Desk.Relates file move m (Fault.Moved m) (form.attempt d) (form.attempt d') := by
  have hdirective : ∀ (word : String) {body : Reading Declaration}, Reading.Agrees m id body body →
      m.Relates id (Grammar.directive word body d.scanner)
        (Grammar.directive word body d'.scanner) := by
    intro word body hbody
    rw [Grammar.directive_eq]
    exact Grammar.relates_headed (Grammar.relates_directiveWord word h.scanner hs)
      fun _ => hbody.map fun _ => rfl
  cases form with
  | namespaceOpen => exact relates_openNamespaces h
  | namespaceClose => exact relates_closeNamespace h
  | importFile =>
    exact relates_ofReading h (hdirective _ ((Grammar.agrees_quoted _).map fun _ => rfl))
  | library =>
    exact relates_ofReading h (hdirective _ ((Grammar.agrees_quoted _).map fun _ => rfl))
  | includeFile =>
    exact relates_ofReading h (hdirective _ ((Grammar.agrees_quoted _).map fun _ => rfl))
  | define => exact relates_ofReading h (hdirective _ (Grammar.agrees_defineBody.map fun _ => rfl))
  | libDefine =>
    exact relates_ofReading h (hdirective _ (Grammar.agrees_defineBody.map fun _ => rfl))
  | typedef => exact relates_ofReading h (Grammar.agrees_typedefDeclaration.relates h.scanner)
  | worldVariable =>
    exact relates_ofReading h ((Grammar.agrees_indexedDeclaration _ _).relates h.scanner)
  | globalVariable =>
    exact relates_ofReading h ((Grammar.agrees_indexedDeclaration _ _).relates h.scanner)
  | enum =>
    refine relates_ofReading h ?_
    rw [Grammar.enumDeclaration_eq]
    exact Grammar.relates_headed (Grammar.relates_aggregateHead _ h.scanner hs)
      Grammar.agrees_enumRest
  | struct =>
    refine relates_ofReading h ?_
    rw [Grammar.structDeclaration_eq]
    exact Grammar.relates_headed (Grammar.relates_aggregateHead _ h.scanner hs)
      Grammar.agrees_structRest
  | function =>
    refine relates_ofReading h ?_
    rw [Grammar.functionDeclaration_eq]
    exact Grammar.relates_headed (Grammar.relates_functionHead h.scanner hs)
      Grammar.agrees_functionRest
  | script => exact relates_ofReading h (Grammar.agrees_scriptDeclaration.relates h.scanner)
  | variableGroup =>
    refine relates_ofReading h ?_
    rw [Grammar.variablesDeclaration_eq]
    exact Grammar.relates_headed (Grammar.relates_variablesHead h.scanner hs)
      Grammar.agrees_variablesRest

/-! ## What a form takes -/

/-- A form leaves the desk alone where it declines, and holds what is looked at where it
matches. -/
structure Tells (p : EStateM Fault Desk Outcome) : Prop where
  declines : ∀ ⦃d d'⦄, p d = .ok .declined d' → d' = d
  sees : ∀ ⦃d declaration d'⦄, p d = .ok (.matched declaration) d' →
    d.scanner.Sees d'.scanner.rest

theorem tells_ofReading {p : Reading (Option Declaration)} (h : p.Tells) :
    Tells (ofReading p) where
  declines d d' e := by
    unfold ofReading at e
    split at e
    · cases e
    next hp =>
      cases e
      rw [h.declines hp]
    · cases e
  sees d declaration d' e := by
    unfold ofReading at e
    split at e
    next hp =>
      cases e
      exact h.sees hp
    · cases e
    · cases e

theorem tells_openNamespaces : Tells openNamespaces where
  declines d d' e := by
    unfold openNamespaces at e
    split at e
    · dsimp only at e
      split at e <;> cases e
    next hp =>
      cases e
      rw [Grammar.tells_namespaceHead.declines hp]
    · cases e
  sees d declaration d' e := by
    unfold openNamespaces at e
    split at e
    next hp =>
      dsimp only at e
      split at e
      · cases e
        exact Grammar.tells_namespaceHead.sees hp
      · cases e
    · cases e
    · cases e

theorem tells_closeNamespace : Tells closeNamespace where
  declines d d' e := by
    unfold closeNamespace at e
    split at e
    · split at e <;> cases e
    · cases e
      rfl
  sees d declaration d' e := by
    unfold closeNamespace at e
    split at e
    next hbrace =>
      split at e
      · cases e
        exact Scanner.sees_of_kind (List.suffix_refl _) (by rw [hbrace]; decide)
          (by rw [hbrace]; decide) (by rw [hbrace]; decide)
      · cases e
    · cases e

theorem tells_attempt (form : Form) : Tells form.attempt := by
  have hquoted : ∀ expected, (Grammar.quoted expected).Onward :=
    fun _ => Reading.onward_of_agrees fun _ => Grammar.agrees_quoted _
  have hdefine : Grammar.defineBody.Onward :=
    Reading.onward_of_agrees fun _ => Grammar.agrees_defineBody
  cases form with
  | namespaceOpen => exact tells_openNamespaces
  | namespaceClose => exact tells_closeNamespace
  | importFile => exact tells_ofReading (Grammar.tells_directive _ (hquoted _).map)
  | library => exact tells_ofReading (Grammar.tells_directive _ (hquoted _).map)
  | includeFile => exact tells_ofReading (Grammar.tells_directive _ (hquoted _).map)
  | define => exact tells_ofReading (Grammar.tells_directive _ hdefine.map)
  | libDefine => exact tells_ofReading (Grammar.tells_directive _ hdefine.map)
  | typedef => exact tells_ofReading Grammar.tells_typedefDeclaration
  | worldVariable => exact tells_ofReading (Grammar.tells_indexedDeclaration (by decide) _)
  | globalVariable => exact tells_ofReading (Grammar.tells_indexedDeclaration (by decide) _)
  | enum =>
    rw [attempt, Grammar.enumDeclaration_eq]
    exact tells_ofReading (Grammar.tells_aggregate Grammar.declares_enumRest
      fun _ => Reading.onward_of_agrees fun _ => Grammar.agrees_enumRest _)
  | struct =>
    rw [attempt, Grammar.structDeclaration_eq]
    exact tells_ofReading (Grammar.tells_aggregate Grammar.declares_structRest
      fun _ => Reading.onward_of_agrees fun _ => Grammar.agrees_structRest _)
  | function => exact tells_ofReading Grammar.tells_functionDeclaration
  | script => exact tells_ofReading Grammar.tells_scriptDeclaration
  | variableGroup => exact tells_ofReading Grammar.tells_variablesDeclaration

end Form

/-! ## Recognition -/

theorem relates_recognizeAmong (forms : List Form) (h : d.Beside file move m d')
    (hs : d.scanner.Sees m.after) :
    Desk.Relates file move m (Rejection.Moved m) (recognizeAmong forms d)
      (recognizeAmong forms d') := by
  induction forms with
  | nil =>
    intro _
    refine ⟨_, _, rfl, ⟨rfl, ?_⟩, h⟩
    show Fault.noDeclaration d.scanner.token = (Fault.noDeclaration d'.scanner.token).move m.move
    rw [Fault.move_noDeclaration, h.scanner.token_eq]
  | cons form forms ih =>
    have hform := form.relates_attempt h hs
    unfold recognizeAmong
    cases e : form.attempt d with
    | ok outcome u =>
      rw [e] at hform
      cases outcome with
      | declined =>
        obtain rfl := form.tells_attempt.declines e
        obtain ⟨v, hq, -⟩ := hform hs.here
        rw [hq, form.tells_attempt.declines hq]
        exact ih
      | matched declaration =>
        intro hin
        obtain ⟨v, hq, huv⟩ := hform hin
        rw [hq]
        exact ⟨v, rfl, huv⟩
    | error fault u =>
      rw [e] at hform
      intro hafter
      obtain ⟨fault', v, hq, hfault, huv⟩ := hform hafter
      rw [hq]
      exact ⟨_, v, rfl, ⟨rfl, hfault⟩, huv⟩

/-- A declaration that is recognized holds all that was looked at to recognize it. -/
theorem sees_of_recognizeAmong {forms : List Form} {declaration : Option Declaration}
    (h : recognizeAmong forms d = .ok declaration d') : d.scanner.Sees d'.scanner.rest := by
  induction forms with
  | nil => cases h
  | cons form forms ih =>
    unfold recognizeAmong at h
    split at h
    next e =>
      rw [form.tells_attempt.declines e] at h
      exact ih h
    next e =>
      cases h
      exact form.tells_attempt.sees e
    · cases h

/-- **The same declaration is recognized in a part of a source.** -/
theorem relates_recognize (h : d.Beside file move m d') :
    Desk.Relates file move m (Rejection.Moved m) (recognize d) (recognize d') := by
  cases e : recognize d with
  | ok declaration u =>
    intro hin
    have hsees : d.scanner.Sees m.after := (sees_of_recognizeAmong e).trans hin
    have hall := relates_recognizeAmong Form.all h hsees
    rw [recognize] at e
    rw [e] at hall
    exact hall hin
  | error rejection u =>
    intro hafter
    have hsees : d.scanner.Sees m.after := hafter ▸ d.scanner.sees_nil
    have hall := relates_recognizeAmong Form.all h hsees
    rw [recognize] at e
    rw [e] at hall
    exact hall hafter

end AcsOutline
