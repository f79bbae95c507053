/-!
# Line breaks

A line break is `\r\n`, a lone `\n` or a lone `\r`; `countBreaks` counts them, the pair once.
-/

namespace AcsOutline.Text

/-- The number of line breaks of a text. -/
def countBreaks : List Char → Nat
  | [] => 0
  | '\r' :: '\n' :: cs => countBreaks cs + 1
  | c :: cs => if c = '\n' ∨ c = '\r' then countBreaks cs + 1 else countBreaks cs

end AcsOutline.Text
