import AcsOutline.Proofs.Grammar.LikeForms
import AcsOutline.Proofs.Grammar.Recognition
import AcsOutline.Proofs.Scanner.Progress

/-!
# What a form leaves behind

Forms are offered one desk in turn, so a form that declines has to hand it on as it found it:
whatever it looked at is given back, the current token and the trivia included.  A form that
matches or fails may have gone on, and no more than that (`Form.Footprint`): the mask is the one
that there was, the trivia that was skipped is still there, and the tree is another one only where
namespaces are opened or closed.  `Form.keeps_attempt` says this of every form at every desk; what
else a session holds, such as the documentation that waits, is not on the desk.
-/

namespace AcsOutline

/-- What is left on the desk by a form, or by all of them. -/
def Desk.after {ε α : Type} : EStateM.Result ε Desk α → Desk
  | .ok _ d | .error _ d => d

namespace Scanner

/-! ## Scanners that went on -/

/-- `t` has gone on from `s`: it adds at most to the trivia, and it has not moved back. -/
structure Onward (s t : Scanner) : Prop where
  follows : t.Follows s
  position_le : s.position ≤ t.position

namespace Onward

variable {s t : Scanner}

theorem refl (s : Scanner) : s.Onward s :=
  ⟨.refl s, Nat.le_refl _⟩

theorem next (h : s.Onward t) : s.Onward t.next :=
  ⟨(follows_next t).trans h.follows, Nat.le_trans h.position_le t.position_le_next⟩

theorem withMask (h : s.Onward t) (mask : SkipMask) : s.Onward (t.withMask mask) :=
  ⟨(follows_withMask t mask).trans h.follows, h.position_le⟩

/-- The trivia that was skipped before comes first. -/
theorem trivia_prefix (h : s.Onward t) : s.trivia <+: t.trivia :=
  List.reverse_prefix.2 h.follows.skipped_suffix

end Onward

/-- A scanner that went on from a place is like itself.  Outside of lines it has the mask that there
was at that place; in a line it may have any, since it is put back at the end of the line. -/
theorem likeness_onward (s : Scanner) :
    Likeness (fun t t' => t = t' ∧ True) (fun t t' => t = t' ∧ t.mask = s.mask ∧ s.Onward t)
      fun t t' => t = t' ∧ s.Onward t :=
  .diagonal (.diagonal (fun _ => trivial) fun {t} ht => ⟨t.mask_next.trans ht.1, ht.2.next⟩)
    (.diagonal (fun _ => trivial) Onward.next) (fun ht => ht.2.withMask _)
    fun ht hu => ⟨ht.1, hu.withMask _⟩

end Scanner

namespace Form

/-! ## The tree -/

theorem builder_ofReading (p : Reading (Option Declaration)) (d : Desk) :
    (Desk.after (ofReading p d)).builder = d.builder := by
  unfold ofReading
  rcases p d.scanner with ⟨_ | declaration, t⟩ | ⟨fault, t⟩ <;> rfl

theorem builder_attempt {form : Form} (h : form ≠ .namespaceOpen) (h' : form ≠ .namespaceClose)
    (d : Desk) : (Desk.after (form.attempt d)).builder = d.builder := by
  cases form with
  | namespaceOpen => exact absurd rfl h
  | namespaceClose => exact absurd rfl h'
  | _ => exact builder_ofReading _ d

/-! ## The whole desk -/

/-- What a form leaves of a desk where it does not decline. -/
structure Footprint (form : Form) (d d' : Desk) : Prop where
  source_eq : d'.scanner.source = d.scanner.source
  mask_eq : d'.scanner.mask = d.scanner.mask
  trivia_prefix : d.scanner.trivia <+: d'.scanner.trivia
  position_le : d.scanner.position ≤ d'.scanner.position
  builder_eq : form ≠ namespaceOpen → form ≠ namespaceClose → d'.builder = d.builder

/-- Whatever comes of a form, it goes on from where it started, under the same mask. -/
theorem footprint_attempt (form : Form) (d : Desk) :
    form.Footprint d (Desk.after (form.attempt d)) := by
  have hself : Desk.Like
      (fun t t' => t = t' ∧ t.mask = d.scanner.mask ∧ d.scanner.Onward t) Eq d d :=
    ⟨⟨rfl, rfl, .refl _⟩, rfl⟩
  have hagree := form.like_attempt (Scanner.likeness_onward d.scanner) steady_eq hself
  have hafter : (Desk.after (form.attempt d)).scanner.mask = d.scanner.mask ∧
      d.scanner.Onward (Desk.after (form.attempt d)).scanner := by
    generalize form.attempt d = r at hagree
    rcases r with ⟨outcome, d'⟩ | ⟨fault, d'⟩ <;> exact hagree.2.scanner.2
  obtain ⟨hmask, honward⟩ := hafter
  exact ⟨honward.follows.source_eq, hmask, honward.trivia_prefix, honward.position_le,
    fun h h' => builder_attempt h h' d⟩

/-- What a form may do to a desk: it leaves all of it as it was, or it takes responsibility for the
declaration and leaves its footprint. -/
def Keeps (form : Form) (d : Desk) : EStateM.Result Fault Desk Outcome → Prop
  | .ok .declined d' => d' = d
  | .ok (.matched _) d' | .error _ d' => form.Footprint d d'

/-- **A form that declines leaves the desk as it was; one that matches or fails keeps the mask and
the trivia, does not move back, and changes the tree only as it opens or closes namespaces.** -/
theorem keeps_attempt (form : Form) (d : Desk) : form.Keeps d (form.attempt d) := by
  have hfootprint := form.footprint_attempt d
  rcases hattempt : form.attempt d with ⟨_ | declaration, d'⟩ | ⟨fault, d'⟩
  · exact form.tells_attempt.declines hattempt
  · rw [hattempt] at hfootprint
    exact hfootprint
  · rw [hattempt] at hfootprint
    exact hfootprint

end Form

end AcsOutline
