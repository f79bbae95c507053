import AcsOutline.Text.CaseTable

/-!
# Lower and upper case

`lowercase` and `uppercase` apply the full case mappings of Unicode to a text, so that one
character may become several: the upper case of `ß` is `SS`, the lower case of `İ` is `i`
followed by a dot above.  The lower case of a capital sigma depends on where it stands: at the
end of a word it is `ς`, elsewhere `σ`.
-/

namespace AcsOutline.Text

/-- The characters that a table maps a character to; a character in no table stays. -/
def mapCase (runs : List CaseRun) (expansions : List (Nat × List Nat)) (c : Char) : List Char :=
  match expansions.lookup c.toNat with
  | some ns => ns.map Char.ofNat
  | none =>
    match runs.findSome? (·.map? c.toNat) with
    | some n => [Char.ofNat n]
    | none => [c]

/-- The lower case of a character on its own. -/
def lowerChar (c : Char) : List Char :=
  if c.toNat < 0x80 then [c.toLower] else mapCase lowerRuns lowerExpansions c

/-- The upper case of a character. -/
def upperChar (c : Char) : List Char :=
  if c.toNat < 0x80 then [c.toUpper] else mapCase upperRuns upperExpansions c

/-- Whether a code point lies in one of the ranges. -/
def inRanges (ranges : List (Nat × Nat)) (n : Nat) : Bool :=
  ranges.any fun (first, last) => first ≤ n && n ≤ last

/-- Whether a text begins, after characters that casing looks through, with one that has a
case. -/
def startsCased (cs : List Char) : Bool :=
  match cs.dropWhile fun c => inRanges caseIgnorableRanges c.toNat with
  | [] => false
  | c :: _ => inRanges casedRanges c.toNat

/-- Whether a capital sigma between `before`, nearest character first, and `after` ends a
word. -/
def isFinalSigma (before after : List Char) : Bool :=
  startsCased before && !startsCased after

/-- The lower case of a text that follows `before`, nearest character first. -/
def lowerFrom (before : List Char) : List Char → List Char
  | [] => []
  | c :: cs =>
    let image := if c = 'Σ' then [if isFinalSigma before cs then 'ς' else 'σ'] else lowerChar c
    image ++ lowerFrom (c :: before) cs

/-- The lower case of a text. -/
def lowercase (s : String) : String :=
  String.ofList (lowerFrom [] s.toList)

/-- The upper case of a text. -/
def uppercase (s : String) : String :=
  String.ofList (s.toList.flatMap upperChar)

end AcsOutline.Text
