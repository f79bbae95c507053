/-!
# Comparisons within ASCII

Keywords, task tags, documentation tags and type names are compared ignoring the case
of the letters `A` to `Z` only: `É` and `é` stay different.
-/

namespace AcsOutline.Text

/-- Whether a character is ASCII punctuation: visible, and neither letter nor digit. -/
def isPunctuation (c : Char) : Bool :=
  0x20 < c.toNat && c.toNat < 0x7F && !c.isAlphanum

/-- Whether two texts are equal up to the case of ASCII letters. -/
def sameWord (a b : String) : Bool :=
  a.toList.map Char.toLower == b.toList.map Char.toLower

theorem sameWord_refl (a : String) : sameWord a a = true := by
  simp [sameWord]

theorem sameWord_comm (a b : String) : sameWord a b = sameWord b a :=
  BEq.comm

theorem sameWord_trans {a b c : String} (h : sameWord a b = true) (h' : sameWord b c = true) :
    sameWord a c = true := by
  simp_all [sameWord]

end AcsOutline.Text
