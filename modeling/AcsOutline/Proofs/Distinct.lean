import Mathlib.Data.List.Induction

/-!
# Lists without repetitions

What `List.eraseDups` comes to when a list grows at its end: an element that was met before is left
out, and another one comes last.
-/

namespace AcsOutline

variable {α : Type}

theorem eraseDups_concat [DecidableEq α] (l : List α) (a : α) :
    (l ++ [a]).eraseDups = if a ∈ l.eraseDups then l.eraseDups else l.eraseDups ++ [a] := by
  rw [List.eraseDups_append]
  by_cases h : a ∈ l <;> simp [List.removeAll, List.eraseDups_cons, h]

theorem nodup_concat {l : List α} {a : α} (hl : l.Nodup) (ha : a ∉ l) : (l ++ [a]).Nodup := by
  refine List.nodup_append.2 ⟨hl, List.pairwise_singleton _ a, fun b hb b' hb' => ?_⟩
  rw [List.mem_singleton.1 hb']
  exact ne_of_mem_of_not_mem hb ha

theorem nodup_eraseDups [DecidableEq α] (l : List α) : l.eraseDups.Nodup := by
  induction l using List.reverseRecOn with
  | nil => exact List.nodup_nil
  | append_singleton l a ih =>
    rw [eraseDups_concat]
    split
    · exact ih
    · rename_i hnew
      exact nodup_concat ih hnew

end AcsOutline
