/-!
# Blank characters and trimming

A character is *blank* when it has the Unicode property White_Space.  Scanning, comment
trimming and task notes all share this one class.  Texts are handled as lists of
characters here; `trim` cuts a text at both ends, `trimStart` and `trimEnd` at one.
-/

namespace AcsOutline.Text

/-- Whether a character has the Unicode property White_Space. -/
def isBlank (c : Char) : Bool :=
  let n := c.toNat
  (9 ≤ n && n ≤ 13) || n == 0x20 || n == 0x85 || n == 0xA0 || n == 0x1680 ||
    (0x2000 ≤ n && n ≤ 0x200A) || n == 0x2028 || n == 0x2029 || n == 0x202F || n == 0x205F ||
    n == 0x3000

theorem ne_of_not_isBlank {c d : Char} (hc : ¬isBlank c = true) (hd : isBlank d = true) :
    c ≠ d := by
  rintro rfl
  exact hc hd

/-- A text without the blank characters at its start. -/
def trimStart (cs : List Char) : List Char :=
  cs.dropWhile isBlank

/-- A text without the blank characters at its end. -/
def trimEnd (cs : List Char) : List Char :=
  (cs.reverse.dropWhile isBlank).reverse

/-- A text without the blank characters at its two ends. -/
def trim (cs : List Char) : List Char :=
  trimEnd (trimStart cs)

end AcsOutline.Text
