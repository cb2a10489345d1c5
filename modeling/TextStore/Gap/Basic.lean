import TextStore.Gap.Counters
import TextStore.Gap.Region
import TextStore.Memory

/-!
# Gap buffers

A text is kept in one region of bytes, split by a gap: the bytes before `gapStart` and those from
`gapEnd` on are the text, and what lies between is free. Edits happen at the gap, so an edit near
the last one moves few bytes. Positions are offsets into the text and never into the region.

* `BufferError` : why an operation is refused, with its wording;
* `GapBuffer` : the region, the gap, two flags and the counters;
* `GapBuffer.contents` : the text, which is what every operation is about;
* `GapBuffer.WellFormed` : the gap lies inside the region;
* `withCapacity`, `ofBytes`, `fresh` : the ways to make a buffer.

An operation that can be refused returns its answer together with the buffer afterwards, so that
what a refusal leaves behind can be stated.
-/

namespace TextStore

inductive BufferError where
  /-- The position lies past the end of the text. -/
  | invalidPosition (position length : Nat)
  /-- The range is reversed or reaches past its limit. -/
  | outOfBounds (start stop limit : Nat)
  /-- A request for this many bytes was refused. -/
  | allocationFailed (requested : Nat)
  /-- The buffer does not accept edits. -/
  | readOnly
  /-- There is no byte to act on. -/
  | empty
  deriving DecidableEq, Repr

def BufferError.message : BufferError → String
  | invalidPosition position length => s!"invalid position {position} (text length {length})"
  | outOfBounds start stop limit => s!"range {start}..{stop} out of bounds (limit {limit})"
  | allocationFailed requested => s!"failed to allocate {requested} bytes"
  | readOnly => "buffer is read-only"
  | empty => "buffer is empty"

/-- A text in a region of bytes with a movable gap. -/
structure GapBuffer where
  /-- The text before the gap, the gap, and the text after it. -/
  region : Region
  /-- The index of the first free byte, which is also the gap's position in the text. -/
  gapStart : Nat
  /-- The index of the first byte after the gap. -/
  gapEnd : Nat
  /-- Whether edits are refused. -/
  readOnly : Bool := false
  /-- Whether the text was edited since the flag was last cleared. -/
  modified : Bool := false
  counters : Counters := {}
  deriving DecidableEq, Repr

namespace GapBuffer

/-- The capacity a buffer gets when nothing else is asked for. -/
def defaultCapacity : Nat := 1024

/-- The free bytes every growth leaves beyond what it was asked for. -/
def minGap : Nat := 64

/-! ## Geometry -/

/-- The gap lies inside the region. -/
def WellFormed (b : GapBuffer) : Prop :=
  b.gapStart ≤ b.gapEnd ∧ b.gapEnd ≤ b.region.size

instance (b : GapBuffer) : Decidable b.WellFormed :=
  inferInstanceAs (Decidable (_ ∧ _))

def capacity (b : GapBuffer) : Nat := b.region.size

/-- The number of free bytes. -/
def gapLength (b : GapBuffer) : Nat := b.gapEnd - b.gapStart

def length (b : GapBuffer) : Nat := b.capacity - b.gapLength

def isEmpty (b : GapBuffer) : Bool := b.length == 0

/-- The text before the gap. -/
def front (b : GapBuffer) : List UInt8 := (b.region.extract 0 b.gapStart).toList

/-- The text after the gap. -/
def back (b : GapBuffer) : List UInt8 := (b.region.extract b.gapEnd b.region.size).toList

/-- The whole text. -/
def contents (b : GapBuffer) : List UInt8 := b.front ++ b.back

/-! ## Making buffers -/

/-- An empty buffer whose whole region is gap. -/
def withCapacity (mem : Memory) (capacity : Nat) : Except BufferError GapBuffer :=
  if mem.region capacity then
    .ok { region := .zeroed capacity, gapStart := 0, gapEnd := capacity
          counters := { maxCapacity := capacity } }
  else .error (.allocationFailed capacity)

/-- An empty buffer without any region. -/
def bare : GapBuffer where
  region := #[]
  gapStart := 0
  gapEnd := 0

/-- An empty buffer of the default capacity, or of none when that is refused. -/
def fresh (mem : Memory) : GapBuffer :=
  match withCapacity mem defaultCapacity with
  | .ok b => b
  | .error _ => bare

/-- A buffer holding `bytes`, with `minGap` free bytes after them. -/
def ofBytes (mem : Memory) (bytes : List UInt8) : Except BufferError GapBuffer :=
  let length := bytes.length
  let capacity := length + minGap
  if wordRange ≤ capacity then .error (.allocationFailed length)
  else if mem.region capacity then
    .ok { region := (Region.zeroed capacity).write 0 bytes.toArray
          gapStart := length, gapEnd := capacity
          counters := { maxLength := length, maxCapacity := capacity } }
  else .error (.allocationFailed capacity)

/-! ## Flags -/

def setReadOnly (b : GapBuffer) (on : Bool) : GapBuffer := { b with readOnly := on }

def setModified (b : GapBuffer) (on : Bool) : GapBuffer := { b with modified := on }

def clearModified (b : GapBuffer) : GapBuffer := b.setModified false

end GapBuffer

end TextStore
