/-!
# Arguments

The words of a command line.  Options may come before and after the input; `--` ends them.  An
option with a value takes it from the same word, as in `--output=F`, `-oF` and `-o=F`, or else
from the next word, unless that looks like an option itself.

A value from the next word is only settled when the next option or the input is met, or at the
end: until then it *waits*.  This decides which of two mistakes is reported.
-/

namespace AcsOutline.CommandLine

/-- What a command line asks for. -/
structure Arguments where
  /-- The path of the file to read. -/
  input : String
  /-- Whether the tree is lowered before it is shown. -/
  lower : Bool
  /-- Whether the task notes are shown. -/
  tasks : Bool
  /-- Whether the function bindings are shown. -/
  bindings : Bool
  /-- The path of the file to write; the standard output where there is none. -/
  output : Option String
  /-- The path of the settings. -/
  config : Option String
  /-- How much is logged. -/
  logLevel : String
deriving DecidableEq, Inhabited

/-- Why a command line is not followed. -/
inductive Refusal where
  | missingInput
  /-- An option that does not exist, or a second input. -/
  | unknownWord
  /-- An option without its value. -/
  | missingValue
  /-- A flag with a value. -/
  | unwantedValue
  /-- An option that is given twice. -/
  | repeatedOption
  | helpWanted
  | versionWanted
deriving DecidableEq, Inhabited

namespace Arguments

/-- What words may name. -/
inductive Slot where
  | input
  | lower
  | tasks
  | bindings
  | output
  | config
  | logLevel
  | help
  | version
deriving DecidableEq, Inhabited

namespace Slot

/-- Whether a slot has a value. -/
def takesValue : Slot → Bool
  | input | output | config | logLevel => true
  | lower | tasks | bindings | help | version => false

/-- The options by their long names. -/
def longNames : List (String × Slot) :=
  [("lower", lower), ("tasks", tasks), ("bindings", bindings), ("output", output),
    ("config", config), ("log-level", logLevel), ("help", help), ("version", version)]

/-- The options by their short names. -/
def shortNames : List (Char × Slot) :=
  [('o', output), ('c', config), ('h', help), ('V', version)]

end Slot

/-- The words read so far. -/
structure Progress where
  /-- What is settled: slots with their values, and flags without. -/
  given : List (Slot × Option String)
  /-- The slot that waits to be settled, with its value if it has one yet. -/
  waiting : Option (Slot × Option String)
  /-- Whether the next word may be the value of the waiting slot. -/
  wantsValue : Bool
  /-- Whether options are over. -/
  onlyInputs : Bool
  /-- Whether the input was met. -/
  hasInput : Bool
deriving Inhabited

namespace Progress

/-- No word is read. -/
def start : Progress :=
  ⟨[], none, false, false, false⟩

/-- Settles a slot. -/
def put (p : Progress) (slot : Slot) (value : Option String) : Except Refusal Progress :=
  if slot.takesValue ∧ value.isNone then .error .missingValue
  else if slot = .help then .error .helpWanted
  else if slot = .version then .error .versionWanted
  else if (p.given.lookup slot).isSome then .error .repeatedOption
  else .ok { p with given := (slot, value) :: p.given }

/-- Settles the slot that waits. -/
def settle (p : Progress) : Except Refusal Progress :=
  match p.waiting with
  | none => .ok p
  | some (slot, value) => put { p with waiting := none, wantsValue := false } slot value

/-- Reads an option with the value from its word, if there is one. -/
def readOption (p : Progress) (slot : Slot) (value : Option String) : Except Refusal Progress := do
  let p ← p.settle
  if slot.takesValue ∧ value.isNone then
    return { p with waiting := some (slot, none), wantsValue := true }
  else
    return { ← p.put slot value with wantsValue := false }

/-- Reads a word after its two dashes. -/
def readLong (p : Progress) (word : List Char) : Except Refusal Progress :=
  let name := String.ofList (word.takeWhile (· ≠ '='))
  let value := match word.dropWhile (· ≠ '=') with
    | [] => none
    | _ :: v => some (String.ofList v)
  match Slot.longNames.lookup name with
  | none => .error .unknownWord
  | some slot =>
    if !slot.takesValue ∧ value.isSome then .error .unwantedValue else p.readOption slot value

/-- The value in a word after a short option. -/
def attachedValue : List Char → Option String
  | [] => none
  | '=' :: v => some (String.ofList v)
  | v => some (String.ofList v)

/-- Reads a word after its one dash: flags, the last of which may be an option with a value. -/
def readShort (p : Progress) : List Char → Except Refusal Progress
  | [] => .ok p
  | c :: cs =>
    match Slot.shortNames.lookup c with
    | none => .error .unknownWord
    | some slot =>
      if slot.takesValue then p.readOption slot (attachedValue cs)
      else do readShort (← p.readOption slot none) cs

/-- Reads a word that is no option. -/
def readInput (p : Progress) (word : String) : Except Refusal Progress :=
  if p.hasInput then .error .unknownWord
  else do
    let p ← p.settle
    return { p with waiting := some (.input, some word), wantsValue := false, hasInput := true }

/-- Reads a word that is neither an option nor `--`. -/
def readPlain (p : Progress) (word : String) : Except Refusal Progress :=
  match p.wantsValue, p.waiting with
  | true, some (slot, none) =>
    .ok { p with waiting := some (slot, some word), wantsValue := false }
  | _, _ => p.readInput word

/-- Reads one word. -/
def read (p : Progress) (word : String) : Except Refusal Progress :=
  if p.onlyInputs then p.readInput word
  else
    match word.toList with
    | ['-', '-'] => .ok { p with onlyInputs := true }
    | '-' :: '-' :: name => p.readLong name
    | '-' :: c :: cs => p.readShort (c :: cs)
    | _ => p.readPlain word

/-- Whether a flag is given. -/
def hasFlag (p : Progress) (slot : Slot) : Bool :=
  (p.given.lookup slot).isSome

/-- The value of a slot, if it is given. -/
def value? (p : Progress) (slot : Slot) : Option String :=
  (p.given.lookup slot).join

/-- What the words ask for. -/
def finish (p : Progress) : Except Refusal Arguments := do
  let p ← p.settle
  match p.value? .input with
  | none => throw .missingInput
  | some input =>
    return {
      input
      lower := p.hasFlag .lower
      tasks := p.hasFlag .tasks
      bindings := p.hasFlag .bindings
      output := p.value? .output
      config := p.value? .config
      logLevel := (p.value? .logLevel).getD "info" }

end Progress

/-- What a command line asks for. -/
def ofWords (words : List String) : Except Refusal Arguments := do
  (← words.foldlM Progress.read .start).finish

end Arguments

end AcsOutline.CommandLine
