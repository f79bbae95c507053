/-!
# Source ranges

A `Span` is a range of byte offsets in a source.  Its end never precedes its start, which is
part of the type; `Span.ofEnds` moves an end that comes too early up to the start.
-/

namespace AcsOutline

/-- A range of byte offsets, from `start` up to and without `stop`. -/
structure Span where
  /-- The offset of the first byte. -/
  start : Nat
  /-- The offset after the last byte. -/
  stop : Nat
  /-- A range does not end before it starts. -/
  start_le_stop : start ≤ stop
deriving DecidableEq

namespace Span

/-- The range between two offsets; one that would end before its start is empty. -/
def ofEnds (start stop : Nat) : Span :=
  ⟨start, max start stop, Nat.le_max_left start stop⟩

/-- The empty range at the start of a source. -/
def zero : Span :=
  ofEnds 0 0

instance : Inhabited Span := ⟨zero⟩

/-- The number of bytes in a range. -/
def length (s : Span) : Nat :=
  s.stop - s.start

/-- Whether a range holds no byte. -/
def isEmpty (s : Span) : Bool :=
  s.start == s.stop

/-- The smallest range that covers two ranges. -/
def union (s t : Span) : Span where
  start := min s.start t.start
  stop := max s.stop t.stop
  start_le_stop := by
    have := s.start_le_stop
    have := t.start_le_stop
    omega

end Span

end AcsOutline
