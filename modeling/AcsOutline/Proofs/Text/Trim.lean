import AcsOutline.Text.Blank
import Mathlib.Data.List.Basic
import Mathlib.Data.List.TakeWhile

/-!
# Trimmed texts

A text is *tidy* when there is something in it and no blank character stands at its two ends
(`Text.Tidy`): trimming gives a tidy text or nothing (`tidy_trim`), and leaves a tidy text as it is
(`Tidy.trim_eq`).
-/

namespace AcsOutline.Text

variable {cs : List Char}

/-- A text that begins and ends with characters which are not blank. -/
structure Tidy (cs : List Char) : Prop where
  nonempty : cs ≠ []
  head : ∀ c, cs.head? = some c → isBlank c = false
  last : ∀ c, cs.getLast? = some c → isBlank c = false

theorem head?_trimStart (cs : List Char) (c : Char) (h : (trimStart cs).head? = some c) :
    isBlank c = false := by
  have hhead := List.head?_dropWhile_not isBlank cs
  rw [show cs.dropWhile isBlank = trimStart cs from rfl, h] at hhead
  simpa using hhead

theorem getLast?_trimEnd (cs : List Char) (c : Char) (h : (trimEnd cs).getLast? = some c) :
    isBlank c = false := by
  rw [trimEnd, List.getLast?_reverse] at h
  exact head?_trimStart cs.reverse c h

theorem trimStart_eq_self (h : ∀ c, cs.head? = some c → isBlank c = false) : trimStart cs = cs := by
  cases cs with
  | nil => rfl
  | cons c cs => exact List.dropWhile_cons_of_neg (by simp [h c rfl])

theorem trimEnd_eq_self (h : ∀ c, cs.getLast? = some c → isBlank c = false) : trimEnd cs = cs := by
  rw [trimEnd, show cs.reverse.dropWhile isBlank = cs.reverse from
    trimStart_eq_self fun c hc => h c (by rwa [List.head?_reverse] at hc), List.reverse_reverse]

/-- What is cut off at the end leaves the start as it is. -/
theorem trimEnd_isPrefix (cs : List Char) : trimEnd cs <+: cs := by
  have hsuffix := List.dropWhile_suffix isBlank (l := cs.reverse)
  rwa [← List.reverse_prefix, List.reverse_reverse] at hsuffix

theorem head?_of_isPrefix {ds : List Char} (h : ds <+: cs) {c : Char} (hc : ds.head? = some c) :
    cs.head? = some c := by
  obtain ⟨rest, rfl⟩ := h
  rw [List.head?_append, hc]
  rfl

/-- Blank characters at the end of a text are cut off. -/
theorem trimEnd_append {blanks : List Char} (h : ∀ c ∈ blanks, isBlank c = true)
    (cs : List Char) : trimEnd (cs ++ blanks) = trimEnd cs := by
  rw [trimEnd, trimEnd, List.reverse_append, List.dropWhile_append_of_pos]
  exact fun c hc => h c (List.mem_reverse.1 hc)

theorem trimEnd_eq_nil_iff : trimEnd cs = [] ↔ ∀ c ∈ cs, isBlank c = true := by
  simp [trimEnd]

/-- A text that ends with more than blank characters is cut off there. -/
theorem trimEnd_append_of_ne_nil {ds : List Char} (h : trimEnd ds ≠ []) (cs : List Char) :
    trimEnd (cs ++ ds) = cs ++ trimEnd ds := by
  have hcut : (ds.reverse.dropWhile isBlank).isEmpty = false := by
    simpa [trimEnd] using h
  rw [trimEnd, List.reverse_append, List.dropWhile_append, hcut, if_neg Bool.false_ne_true,
    List.reverse_append, List.reverse_reverse, trimEnd]

/-- What ends without a blank character stays whole where only what follows it is trimmed. -/
theorem trimEnd_append_of_last (h : ∀ c, cs.getLast? = some c → isBlank c = false)
    (ds : List Char) : trimEnd (cs ++ ds) = cs ++ trimEnd ds := by
  by_cases hds : trimEnd ds = []
  · rw [trimEnd_append (trimEnd_eq_nil_iff.1 hds), trimEnd_eq_self h, hds, List.append_nil]
  · exact trimEnd_append_of_ne_nil hds cs

/-- Tidy texts stay tidy where something stands between them. -/
theorem Tidy.append {ds : List Char} (h : Tidy cs) (h' : Tidy ds) (between : List Char) :
    Tidy (cs ++ between ++ ds) where
  nonempty := by simp [h.nonempty]
  head c hc := by
    rw [List.append_assoc, List.head?_append_of_ne_nil _ h.nonempty] at hc
    exact h.head c hc
  last c hc := by
    rw [List.getLast?_append_of_ne_nil _ h'.nonempty] at hc
    exact h'.last c hc

/-- What is left of a tidy text when its start is cut off and trimmed is nothing or tidy. -/
theorem Tidy.trimStart_suffix {ds : List Char} (h : Tidy cs) (hsuffix : ds <:+ cs)
    (hne : trimStart ds ≠ []) : Tidy (trimStart ds) where
  nonempty := hne
  head := head?_trimStart ds
  last c hc := by
    obtain ⟨before, rfl⟩ := (List.dropWhile_suffix isBlank).trans hsuffix
    exact h.last c ((List.getLast?_append_of_ne_nil before hne).trans hc)

theorem Tidy.trim_eq (h : Tidy cs) : trim cs = cs := by
  rw [trim, trimStart_eq_self h.head, trimEnd_eq_self h.last]

/-- **Trimming leaves nothing, or a tidy text.** -/
theorem tidy_trim (h : trim cs ≠ []) : Tidy (trim cs) where
  nonempty := h
  head c hc := head?_trimStart cs c (head?_of_isPrefix (trimEnd_isPrefix _) hc)
  last c hc := getLast?_trimEnd (trimStart cs) c hc

/-- Where some character of a text is not blank, trimming leaves something. -/
theorem trim_ne_nil {c : Char} (hc : c ∈ cs) (hblank : isBlank c = false) : trim cs ≠ [] := by
  intro h
  have hend := trimEnd_eq_nil_iff.1 h
  have hstart : trimStart cs = [] := by
    cases hcut : trimStart cs with
    | nil => rfl
    | cons d ds =>
      have hd := hend d (by rw [hcut]; simp)
      rw [head?_trimStart cs d (by rw [hcut]; rfl)] at hd
      cases hd
  rw [List.dropWhile_eq_nil_iff.1 hstart c hc] at hblank
  cases hblank

/-- It does not matter which end of a text is trimmed first. -/
theorem trimStart_trimEnd (cs : List Char) : trimStart (trimEnd cs) = trim cs := by
  by_cases h : trim cs = []
  · have hblank : ∀ c ∈ cs, isBlank c = true := fun c hc =>
      Bool.not_eq_false _ ▸ fun hfalse => trim_ne_nil hc hfalse h
    rw [trimEnd_eq_nil_iff.2 hblank, h, trimStart, List.dropWhile_nil]
  · calc trimStart (trimEnd cs)
        = trimStart (trimEnd (cs.takeWhile isBlank ++ trimStart cs)) := by
          rw [show trimStart cs = cs.dropWhile isBlank from rfl, List.takeWhile_append_dropWhile]
      _ = trimStart (cs.takeWhile isBlank ++ trim cs) := by
          rw [trimEnd_append_of_ne_nil h, trim]
      _ = trimStart (trim cs) :=
          List.dropWhile_append_of_pos (List.all_eq_true.1 List.all_takeWhile)
      _ = trim cs := trimStart_eq_self (tidy_trim h).head

theorem trim_trimEnd (cs : List Char) : trim (trimEnd cs) = trim cs := by
  rw [trim, trimStart_trimEnd, trim, trimEnd_eq_self (getLast?_trimEnd _)]

end AcsOutline.Text
