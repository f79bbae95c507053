import AcsOutline.TaskNote
import AcsOutline.Proofs.Text.Split
import AcsOutline.Proofs.Text.Trim

/-!
# Task notes in plain form

The plain form of a task note is its tag, a colon, a space and its text (`TaskNote.plain`).  The
colon is the one mark that is left out behind the tag, so that marks at the start of the text are
kept: a tag of the list and any text in plain form are read as that tag and the trimmed text
(`TaskNote.ofComment?_plain`).

What is read from comments is just the tags of the list, as they may be spelled
(`TaskNote.IsTag`), with texts that are empty or tidy (`TaskNote.exists_ofComment?_eq_some`), and
the plain form of what was read is read as the same note (`TaskNote.ofComment?_reread`).
-/

namespace AcsOutline

namespace TaskNote

open Text

variable {tags : List String} {comment tag text : String} {c : Char} {cs : List Char}

/-- The comment that has only a tag and a text to it. -/
def plain (tag text : String) : String :=
  tag ++ ": " ++ text

/-- A spelling of a tag of the list: one word that is in the list up to the case of ASCII
letters. -/
structure IsTag (tags : List String) (tag : String) : Prop where
  nonempty : tag ≠ ""
  isWord : ∀ c ∈ tag.toList, isBlank c = false ∧ isPunctuation c = false
  listed : ∃ t ∈ tags, sameWord t tag = true

/-! ## Marks -/

theorem isBlank_of_isPunctuation (h : isPunctuation c = true) : isBlank c = false := by
  simp only [isPunctuation, Bool.and_eq_true, decide_eq_true_eq] at h
  simp only [isBlank, Bool.or_eq_false_iff, Bool.and_eq_false_iff, decide_eq_false_iff_not,
    beq_eq_false_iff_ne]
  omega

theorem isTagChar_eq_true : isTagChar c = true ↔ isBlank c = false ∧ isPunctuation c = false := by
  simp [isTagChar]

theorem stripMarker_eq_self (h : ∀ c, cs.head? = some c → isPunctuation c = false) :
    stripMarker cs = cs := by
  cases cs with
  | nil => rfl
  | cons c cs => exact if_neg (by simp [h c rfl])

/-- A mark at the start of a text is left out, and only this one. -/
theorem stripMarker_trim_cons (h : isPunctuation c = true) (cs : List Char) :
    stripMarker (trim (c :: cs)) = trim cs := by
  have hc : isBlank c = false := isBlank_of_isPunctuation h
  calc stripMarker (trim (c :: cs))
      = stripMarker (trimEnd ([c] ++ cs)) := by
        rw [trim, List.singleton_append, trimStart_eq_self (by rintro d ⟨⟩; exact hc)]
    _ = stripMarker (c :: trimEnd cs) := by
        rw [trimEnd_append_of_last (by rintro d ⟨⟩; exact hc), List.singleton_append]
    _ = trimStart (trimEnd cs) := if_pos h
    _ = trim cs := trimStart_trimEnd cs

/-- A word at the start of a text is no mark, and stays. -/
theorem stripMarker_trim_append {word : List Char} (hne : word ≠ [])
    (hword : ∀ c ∈ word, isBlank c = false ∧ isPunctuation c = false) (rest : List Char) :
    stripMarker (trim (word ++ rest)) = word ++ trimEnd rest := by
  have hhead : ∀ ds c, (word ++ ds).head? = some c → c ∈ word := fun ds c hc =>
    List.mem_of_head? (List.head?_append_of_ne_nil word hne ▸ hc)
  rw [trim, trimStart_eq_self fun c hc => (hword c (hhead rest c hc)).1,
    trimEnd_append_of_last fun c hc => (hword c (List.mem_of_getLast? hc)).1,
    stripMarker_eq_self fun c hc => (hword c (hhead _ c hc)).2]

/-- What is left of a trimmed text without its mark is nothing or tidy. -/
theorem tidy_stripMarker_trim (h : stripMarker (trim cs) ≠ []) : Tidy (stripMarker (trim cs)) := by
  cases htrim : trim cs with
  | nil => exact absurd (by rw [htrim]; rfl) h
  | cons c ds =>
    have htidy : Tidy (c :: ds) := htrim ▸ tidy_trim (by simp [htrim])
    rw [htrim, stripMarker] at h
    rw [stripMarker]
    split at h
    next hc => exact if_pos hc ▸ htidy.trimStart_suffix (List.suffix_cons c ds) h
    next hc => exact if_neg hc ▸ htidy

/-! ## Reading -/

/-- A comment without its first mark is a tag and what stands behind it. -/
theorem ofComment?_eq_some_iff : ofComment? tags comment = some (tag, text) ↔
    IsTag tags tag ∧ ∃ rest, stripMarker (trim comment.toList) = tag.toList ++ rest ∧
      (∀ c, rest.head? = some c → isTagChar c = false) ∧
      text = String.ofList (stripMarker (trim rest)) := by
  unfold ofComment?
  generalize stripMarker (trim comment.toList) = body
  constructor
  · intro h
    obtain ⟨hread, hpair⟩ := Option.ite_none_right_eq_some.1 h
    obtain ⟨rfl, rfl⟩ := Prod.mk.inj (Option.some.inj hpair)
    have hword : ∀ c ∈ body.takeWhile isTagChar, isTagChar c = true :=
      List.all_eq_true.1 List.all_takeWhile
    refine ⟨⟨hread.1, fun c hc => isTagChar_eq_true.1 (hword c ?_), List.any_eq_true.1 hread.2⟩,
      body.dropWhile isTagChar, ?_, fun c hc => ?_, rfl⟩
    · rwa [String.toList_ofList] at hc
    · rw [String.toList_ofList, List.takeWhile_append_dropWhile]
    · simpa [hc] using List.head?_dropWhile_not isTagChar body
  · rintro ⟨htag, rest, rfl, hrest, rfl⟩
    have hword : ∀ c ∈ tag.toList, isTagChar c = true :=
      fun c hc => isTagChar_eq_true.2 (htag.isWord c hc)
    simp only [takeWhile_append_of_head hword hrest, dropWhile_append_of_head hword hrest,
      String.ofList_toList]
    exact if_pos ⟨htag.nonempty, List.any_eq_true.2 htag.listed⟩

/-- **The plain form of a task note is read as its tag and its text**, but for the blank characters
around the text. -/
theorem ofComment?_plain (h : IsTag tags tag) (text : String) :
    ofComment? tags (plain tag text) = some (tag, String.ofList (trim text.toList)) := by
  have hplain : (plain tag text).toList = tag.toList ++ ':' :: ' ' :: text.toList := by
    simp [plain]
  have hne : tag.toList ≠ [] := fun hnil => h.nonempty (String.toList_eq_nil_iff.1 hnil)
  refine ofComment?_eq_some_iff.2 ⟨h, trimEnd (':' :: ' ' :: text.toList), ?_, fun c hc => ?_, ?_⟩
  · rw [hplain, stripMarker_trim_append hne h.isWord]
  · obtain rfl : c = ':' := Option.some.inj (head?_of_isPrefix (trimEnd_isPrefix _) hc).symm
    decide
  · rw [trim_trimEnd, stripMarker_trim_cons (by decide)]
    rfl

theorem ofComment?_plain_of_tidy (h : IsTag tags tag) (htext : text = "" ∨ Tidy text.toList) :
    ofComment? tags (plain tag text) = some (tag, text) := by
  have htrim : trim text.toList = text.toList := by
    rcases htext with rfl | htidy
    · rfl
    · exact htidy.trim_eq
  rw [ofComment?_plain h, htrim, String.ofList_toList]

/-- **What can be read from comments**: the tags of the list, with texts that are empty or tidy. -/
theorem exists_ofComment?_eq_some :
    (∃ comment, ofComment? tags comment = some (tag, text)) ↔
      IsTag tags tag ∧ (text = "" ∨ Tidy text.toList) := by
  constructor
  · rintro ⟨comment, h⟩
    obtain ⟨htag, rest, -, -, rfl⟩ := ofComment?_eq_some_iff.1 h
    refine ⟨htag, ?_⟩
    rw [String.toList_ofList]
    by_cases hne : stripMarker (trim rest) = []
    · exact Or.inl (by rw [hne])
    · exact Or.inr (tidy_stripMarker_trim hne)
  · exact fun ⟨htag, htext⟩ => ⟨plain tag text, ofComment?_plain_of_tidy htag htext⟩

/-- **What was read is read again from its plain form.**  The tag is a spelling of a tag of the
list, and no blank characters are left around the text. -/
theorem ofComment?_reread (h : ofComment? tags comment = some (tag, text)) :
    ofComment? tags (plain tag text) = some (tag, text) ∧ IsTag tags tag ∧
      (text = "" ∨ Tidy text.toList) := by
  obtain ⟨htag, htext⟩ := exists_ofComment?_eq_some.1 ⟨comment, h⟩
  exact ⟨ofComment?_plain_of_tidy htag htext, htag, htext⟩

/-- The text begins with marks of its own, and a wide blank stands behind it. -/
theorem ofComment?_reread_marks :
    ofComment? ["hack", "todo"] " @ToDo -:- ¿é?\u3000" = some ("ToDo", ":- ¿é?") ∧
      ofComment? ["hack", "todo"] (plain "ToDo" ":- ¿é?") = some ("ToDo", ":- ¿é?") ∧
      IsTag ["hack", "todo"] "ToDo" ∧ (":- ¿é?" = "" ∨ Tidy ":- ¿é?".toList) := by
  have h : ofComment? ["hack", "todo"] " @ToDo -:- ¿é?\u3000" = some ("ToDo", ":- ¿é?") := by
    decide
  exact ⟨h, ofComment?_reread h⟩

end TaskNote

end AcsOutline
