/-!
# Byte offsets

Positions in a source are counted in bytes of its UTF-8 form.  `byteLength` measures a text
and `slice` takes out the characters that start at or after one offset and before another.
-/

namespace AcsOutline.Text

/-- The number of bytes of a text in UTF-8. -/
def byteLength : List Char → Nat
  | [] => 0
  | c :: cs => c.utf8Size + byteLength cs

@[simp]
theorem byteLength_nil : byteLength [] = 0 := rfl

@[simp]
theorem byteLength_cons (c : Char) (cs : List Char) :
    byteLength (c :: cs) = c.utf8Size + byteLength cs := rfl

@[simp]
theorem byteLength_append (cs ds : List Char) :
    byteLength (cs ++ ds) = byteLength cs + byteLength ds := by
  induction cs with
  | nil => simp
  | cons c cs ih => simp [ih, Nat.add_assoc]

theorem utf8ByteSize_ofList (cs : List Char) : (String.ofList cs).utf8ByteSize = byteLength cs := by
  induction cs with
  | nil => rfl
  | cons c cs ih =>
    have hc : (String.ofList [c]).utf8ByteSize = c.utf8Size := by
      show (String.singleton c).utf8ByteSize = _
      rw [String.utf8ByteSize_singleton]
    rw [byteLength_cons, ← ih, ← List.singleton_append, String.ofList_append,
      String.utf8ByteSize_append, hc]

/-- A text without the characters that start before byte `n`. -/
def dropBytes (n : Nat) : List Char → List Char
  | [] => []
  | c :: cs => if n = 0 then c :: cs else dropBytes (n - c.utf8Size) cs

/-- The characters of a text that start before byte `n`. -/
def takeBytes (n : Nat) : List Char → List Char
  | [] => []
  | c :: cs => if n = 0 then [] else c :: takeBytes (n - c.utf8Size) cs

/-- The part of a text from byte `start` to byte `stop`, both on character boundaries. -/
def slice (cs : List Char) (start stop : Nat) : List Char :=
  takeBytes (stop - start) (dropBytes start cs)

/-- Cutting at the length of a first part leaves the second part. -/
theorem dropBytes_append (cs ds : List Char) : dropBytes (byteLength cs) (cs ++ ds) = ds := by
  induction cs with
  | nil => cases ds <;> simp [dropBytes]
  | cons c cs ih =>
    have : 0 < c.utf8Size := Char.utf8Size_pos c
    simp only [byteLength_cons, List.cons_append, dropBytes]
    rw [if_neg (by omega), Nat.add_sub_cancel_left, ih]

/-- Taking the length of a first part gives that part. -/
theorem takeBytes_append (cs ds : List Char) : takeBytes (byteLength cs) (cs ++ ds) = cs := by
  induction cs with
  | nil => cases ds <;> simp [takeBytes]
  | cons c cs ih =>
    have : 0 < c.utf8Size := Char.utf8Size_pos c
    simp only [byteLength_cons, List.cons_append, takeBytes]
    rw [if_neg (by omega), Nat.add_sub_cancel_left, ih]

/-- A middle part is the slice between its two offsets. -/
theorem slice_append (before mid after : List Char) :
    slice (before ++ mid ++ after) (byteLength before) (byteLength (before ++ mid)) = mid := by
  simp only [slice, byteLength_append, Nat.add_sub_cancel_left, List.append_assoc,
    dropBytes_append, takeBytes_append]

end AcsOutline.Text
