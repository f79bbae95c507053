import AcsOutline.Toml.Number

/-!
# Points in time

A TOML document may name a date of the calendar, a time of day or both.  A date and a time
together may also say how far the clock is from universal time.  The seconds of a time and their
fraction may be missing.
-/

namespace AcsOutline.Toml.Moment

/-- The number that a given count of digits stands for, and what is left; a further digit must not
follow. -/
def digits? (count : Nat) (cs : List Char) : Option (Nat × List Char) :=
  let ds := cs.takeWhile Char.isDigit
  if ds.length = count then some (Number.valueIn 10 ds, cs.dropWhile Char.isDigit) else none

/-- What is left of a text after the character that it has to start with. -/
def after? (c : Char) : List Char → Option (List Char)
  | d :: cs => if d = c then some cs else none
  | [] => none

/-- Whether a year has a 29th of February. -/
def isLeapYear (year : Nat) : Bool :=
  year % 4 = 0 && (year % 100 ≠ 0 || year % 400 = 0)

/-- How many days a month has. -/
def daysIn (year month : Nat) : Nat :=
  if month = 2 then if isLeapYear year then 29 else 28
  else if month = 4 ∨ month = 6 ∨ month = 9 ∨ month = 11 then 30
  else 31

/-- What is left of a text after the date that it starts with. -/
def date? (cs : List Char) : Option (List Char) := do
  let (year, cs) ← digits? 4 cs
  let (month, cs) ← digits? 2 (← after? '-' cs)
  let (day, cs) ← digits? 2 (← after? '-' cs)
  if 1 ≤ month ∧ month ≤ 12 ∧ 1 ≤ day ∧ day ≤ daysIn year month then some cs else none

/-- What is left of a text after hours and minutes. -/
def clock? (cs : List Char) : Option (List Char) := do
  let (hour, cs) ← digits? 2 cs
  let (minute, cs) ← digits? 2 (← after? ':' cs)
  if hour ≤ 23 ∧ minute ≤ 59 then some cs else none

/-- What is left of a text after a fraction of a second, if there is one. -/
def fraction? : List Char → Option (List Char)
  | '.' :: cs =>
    if (cs.takeWhile Char.isDigit).isEmpty then none else some (cs.dropWhile Char.isDigit)
  | cs => some cs

/-- What is left of a text after the time of day that it starts with.  A minute may have a
leap second. -/
def time? (cs : List Char) : Option (List Char) := do
  match ← clock? cs with
  | ':' :: cs =>
    let (second, cs) ← digits? 2 cs
    if second ≤ 60 then fraction? cs else none
  | cs => some cs

/-- Whether a text is empty or a distance from universal time. -/
def isOffset : List Char → Bool
  | [] => true
  | ['Z'] => true
  | ['z'] => true
  | '+' :: cs => clock? cs == some []
  | '-' :: cs => clock? cs == some []
  | _ => false

/-- Whether a character may stand between a date and a time. -/
def isBetween (c : Char) : Bool :=
  c = 'T' || c = 't' || c = ' '

/-- Whether a text is a date alone. -/
def isDate (cs : List Char) : Bool :=
  date? cs == some []

/-- Whether a text is a point in time. -/
def isMoment (cs : List Char) : Bool :=
  match date? cs with
  | some [] => true
  | some (c :: cs) => isBetween c && (time? cs).any isOffset
  | none => time? cs == some []

end AcsOutline.Toml.Moment
