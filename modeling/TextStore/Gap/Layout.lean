import TextStore.Gap.Basic

/-!
# The layout of a gap buffer

Operations that move the gap or enlarge the region and keep the text.

* `placeGap`, `moveGap` : put the gap at a text position;
* `grownCapacity?` : the growth policy;
* `reserve` : makes sure the region has a size;
* `makeRoom` : makes sure the gap has a size.
-/

namespace TextStore.GapBuffer

/-! ## Moving the gap -/

/-- Puts the gap at text position `pos`, which is at most the length. Only the bytes between the
old and the new place move. -/
def placeGap (b : GapBuffer) (pos : Nat) : GapBuffer :=
  if pos < b.gapStart then
    let distance := b.gapStart - pos
    { b with
      region := b.region.slide pos b.gapStart (b.gapEnd - distance)
      gapStart := pos
      gapEnd := b.gapEnd - distance
      counters := { b.counters with gapMoves := b.counters.gapMoves + 1 } }
  else if b.gapStart < pos then
    let distance := pos - b.gapStart
    { b with
      region := b.region.slide b.gapEnd (b.gapEnd + distance) b.gapStart
      gapStart := b.gapStart + distance
      gapEnd := b.gapEnd + distance
      counters := { b.counters with gapMoves := b.counters.gapMoves + 1 } }
  else b

def moveGap (b : GapBuffer) (pos : Nat) : Except BufferError Unit × GapBuffer :=
  if b.length < pos then (.error (.invalidPosition pos b.length), b)
  else (.ok (), b.placeGap pos)

/-! ## Growing -/

/-- The capacity a region of `old` bytes grows to when `needed` bytes are asked for: half as much
again, and at least `minGap` more than needed. There is none when a product or sum on the way is
no machine word. -/
def grownCapacity? (old needed : Nat) : Option Nat :=
  if old * 3 < wordRange ∧ needed + minGap < wordRange then
    some (max (old * 3 / 2) (needed + minGap))
  else none

/-- Replaces the region by one of `capacity` bytes; the gap keeps its place in the text. -/
def grow (b : GapBuffer) (capacity : Nat) : GapBuffer :=
  { b with
    region := b.region.resplit b.gapStart b.gapEnd capacity
    gapEnd := capacity - (b.region.size - b.gapEnd)
    counters :=
      { b.counters with
        growths := b.counters.growths + 1
        maxCapacity := max b.counters.maxCapacity capacity } }

/-- Makes sure the region has at least `needed` bytes. -/
def reserve (mem : Memory) (b : GapBuffer) (needed : Nat) : Except BufferError Unit × GapBuffer :=
  if needed ≤ b.capacity then (.ok (), b)
  else
    -- a refusal names what was needed if no size can be computed, and the size otherwise
    match grownCapacity? b.capacity needed with
    | none => (.error (.allocationFailed needed), b)
    | some capacity =>
      if mem.region capacity then (.ok (), b.grow capacity)
      else (.error (.allocationFailed capacity), b)

/-- Makes sure the gap has room for `count` bytes. -/
def makeRoom (mem : Memory) (b : GapBuffer) (count : Nat) : Except BufferError Unit × GapBuffer :=
  if count ≤ b.gapLength then (.ok (), b)
  else if wordRange ≤ b.length + count then (.error (.allocationFailed count), b)
  else b.reserve mem (b.length + count)

end TextStore.GapBuffer
