/-!
# Numbers

How whole numbers and numbers with a fraction or an exponent are written in TOML, and which of
them are too large to be read.  A whole number has at most 128 bits; a number of the other sort
has to round to a finite one of 64 bits.  An underscore may stand between two digits and means
nothing.
-/

namespace AcsOutline.Toml.Number

/-! ## Digits -/

/-- The value of a hexadecimal digit. -/
def hexDigit? (c : Char) : Option Nat :=
  if c.isDigit then some (c.toNat - '0'.toNat)
  else if 'a' ≤ c.toLower ∧ c.toLower ≤ 'f' then some (c.toLower.toNat - 'a'.toNat + 10)
  else none

/-- Whether a character is a digit in a base of at most sixteen. -/
def isDigitIn (base : Nat) (c : Char) : Bool :=
  match hexDigit? c with
  | some d => d < base
  | none => false

/-- The number that the digits of a text stand for in a base; other characters mean nothing. -/
def valueIn (base : Nat) (cs : List Char) : Nat :=
  cs.foldl (fun n c => match hexDigit? c with
    | some d => base * n + d
    | none => n) 0

/-- Whether a text is one digit or more, with single underscores between some of them. -/
def isDigits (isDigit : Char → Bool) : List Char → Bool
  | [] => false
  | [c] => isDigit c
  | c :: '_' :: cs => isDigit c && isDigits isDigit cs
  | c :: cs => isDigit c && isDigits isDigit cs

/-- A text without the sign that it may start with. -/
def dropSign : List Char → List Char
  | '+' :: cs => cs
  | '-' :: cs => cs
  | cs => cs

/-- Whether a text is a decimal number without a sign; zero is the only one that starts with a
zero. -/
def isDecimal (cs : List Char) : Bool :=
  isDigits Char.isDigit cs && (cs.length == 1 || cs.head? != some '0')

/-! ## Whole numbers -/

/-- The base that a whole number names before its digits, with those digits. -/
def radix? : List Char → Option (Nat × List Char)
  | '0' :: 'x' :: ds => some (16, ds)
  | '0' :: 'o' :: ds => some (8, ds)
  | '0' :: 'b' :: ds => some (2, ds)
  | _ => none

/-- Whether a text is a whole number: decimal with an optional sign, or without a sign in a base
that it names. -/
def isInteger (cs : List Char) : Bool :=
  match radix? cs with
  | some (base, ds) => isDigits (isDigitIn base) ds
  | none => isDecimal (dropSign cs)

/-- Whether a whole number has at most 128 bits; a negative one needs one of them for its sign. -/
def isWide128 (cs : List Char) : Bool :=
  match radix? cs with
  | some (base, ds) => valueIn base ds < Nat.pow 2 128
  | none =>
    if cs.head? = some '-' then valueIn 10 cs ≤ Nat.pow 2 127 else valueIn 10 cs < Nat.pow 2 128

/-! ## Numbers with a fraction or an exponent -/

/-- A decimal number in parts, without its sign. -/
structure Parts where
  /-- What stands before the point. -/
  whole : List Char
  /-- What stands between the point and the exponent, if there is a point. -/
  fraction : Option (List Char)
  /-- The exponent with its sign, if there is one. -/
  exponent : Option (List Char)

/-- Whether a character may stand in the digits of a number. -/
def isNumeral (c : Char) : Bool :=
  c.isDigit || c = '_'

/-- The parts of a number without a sign. -/
def Parts.ofText? (cs : List Char) : Option Parts :=
  let whole := cs.takeWhile isNumeral
  let (fraction, rest) : Option (List Char) × List Char :=
    match cs.dropWhile isNumeral with
    | '.' :: rest => (some (rest.takeWhile isNumeral), rest.dropWhile isNumeral)
    | rest => (none, rest)
  match rest with
  | [] => some ⟨whole, fraction, none⟩
  | c :: exponent =>
    if c = 'e' ∨ c = 'E' then some ⟨whole, fraction, some exponent⟩ else none

/-- Whether the parts are digits, and one beside the first is there. -/
def Parts.isWritten (p : Parts) : Bool :=
  isDecimal p.whole && p.fraction.all (isDigits Char.isDigit) &&
    p.exponent.all (fun e => isDigits Char.isDigit (dropSign e)) &&
    (p.fraction.isSome || p.exponent.isSome)

/-- Whether a text names no finite number, sign apart. -/
def isSpecial (cs : List Char) : Bool :=
  cs == "inf".toList || cs == "nan".toList

/-- Whether a text is a number with a fraction or an exponent, or names no finite number. -/
def isFloat (cs : List Char) : Bool :=
  isSpecial (dropSign cs) || (Parts.ofText? (dropSign cs)).any Parts.isWritten

/-- Whether `mantissa * 10 ^ exponent` rounds to a finite number of 64 bits.  The least number
that does not lies half a step above the largest finite one, between `10 ^ 308` and
`10 ^ 309`. -/
def isFinite64 (mantissa : Nat) (exponent : Int) : Bool :=
  let bound := (Nat.pow 2 54 - 1) * Nat.pow 2 970
  let magnitude := exponent + (Nat.toDigits 10 mantissa).length
  if mantissa = 0 ∨ magnitude ≤ 308 then true
  else if 309 < magnitude then false
  else match exponent with
    | .ofNat e => mantissa * Nat.pow 10 e < bound
    | .negSucc e => mantissa < bound * Nat.pow 10 (e + 1)

/-- Whether the number rounds to a finite one of 64 bits. -/
def Parts.isFinite (p : Parts) : Bool :=
  let fraction := (p.fraction.getD []).filter Char.isDigit
  let written := p.exponent.getD []
  let exponent : Int :=
    if written.head? = some '-' then - Int.ofNat (valueIn 10 written)
    else Int.ofNat (valueIn 10 written)
  isFinite64 (valueIn 10 (p.whole ++ fraction)) (exponent - fraction.length)

/-- Whether a number is within the bounds of its kind.  What is no number has no bounds. -/
def isBounded (cs : List Char) : Bool :=
  if isInteger cs then isWide128 cs
  else match Parts.ofText? (dropSign cs) with
    | some p => !p.isWritten || p.isFinite
    | none => true

end AcsOutline.Toml.Number
