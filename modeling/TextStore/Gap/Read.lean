import TextStore.Gap.Basic

/-!
# Reading a gap buffer

* `byteAt` : the byte at a text position;
* `get`, `extract` : checked reads;
* `copyInto`, `copyAllInto` : overwrite the front of a destination.
-/

namespace TextStore.GapBuffer

/-- The index in the region of text position `pos`. -/
def physical (b : GapBuffer) (pos : Nat) : Nat :=
  if pos < b.gapStart then pos else pos + b.gapLength

/-- The byte at text position `pos`, which is below the length. -/
def byteAt (b : GapBuffer) (pos : Nat) : UInt8 := b.region.getD (b.physical pos) 0

def get (b : GapBuffer) (pos : Nat) : Except BufferError UInt8 :=
  if b.isEmpty then .error .empty
  else if b.length ≤ pos then .error (.invalidPosition pos b.length)
  else .ok (b.byteAt pos)

/-- The text of `[start, stop)`, a range inside the text, read run by run. -/
def slice (b : GapBuffer) (start stop : Nat) : List UInt8 :=
  let split := b.gapStart
  if stop ≤ split then (b.region.extract start stop).toList
  else if split ≤ start then
    (b.region.extract (b.gapEnd + (start - split)) (b.gapEnd + (stop - split))).toList
  else
    (b.region.extract start split).toList ++
      (b.region.extract b.gapEnd (b.gapEnd + (stop - split))).toList

/-- Refuses a range that is reversed or reaches past the text. -/
def checkRange (b : GapBuffer) (start stop : Nat) : Except BufferError Unit :=
  if stop < start ∨ b.length < stop then .error (.outOfBounds start stop b.length) else .ok ()

def extract (mem : Memory) (b : GapBuffer) (start stop : Nat) : Except BufferError (List UInt8) :=
  match b.checkRange start stop with
  | .error e => .error e
  | .ok () =>
    if mem.copy (stop - start) then .ok (b.slice start stop)
    else .error (.allocationFailed (stop - start))

/-- Overwrites the front of `dest` with the text of `[start, stop)`; answers how many bytes that
was, together with the destination afterwards. -/
def copyInto (b : GapBuffer) (start stop : Nat) (dest : List UInt8) :
    Except BufferError Nat × List UInt8 :=
  match b.checkRange start stop with
  | .error e => (.error e, dest)
  | .ok () =>
    let size := stop - start
    if dest.length < size then (.error (.outOfBounds 0 size dest.length), dest)
    else (.ok size, b.slice start stop ++ dest.drop size)

def copyAllInto (b : GapBuffer) (dest : List UInt8) : Except BufferError Nat × List UInt8 :=
  b.copyInto 0 b.length dest

end TextStore.GapBuffer
