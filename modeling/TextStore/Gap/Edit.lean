import TextStore.Gap.Layout

/-!
# Editing a gap buffer

* `insert`, `insertByte` : put bytes into the text;
* `delete`, `deleteByte`, `clear` : take bytes out of it.

The position or range is checked first and the read-only flag after it. An edit of no bytes is
accepted and leaves everything as it is, the counters included.
-/

namespace TextStore.GapBuffer

/-! ## Inserting -/

/-- Writes `bytes` at the start of the gap, which has room for them. -/
def fill (b : GapBuffer) (bytes : List UInt8) : GapBuffer :=
  let filled : GapBuffer :=
    { b with
      region := b.region.write b.gapStart bytes.toArray
      gapStart := b.gapStart + bytes.length
      modified := true }
  { filled with
    counters :=
      { b.counters with
        inserts := b.counters.inserts + 1
        maxLength := max b.counters.maxLength filled.length } }

def insert (mem : Memory) (b : GapBuffer) (pos : Nat) (bytes : List UInt8) :
    Except BufferError Unit × GapBuffer :=
  if b.length < pos then (.error (.invalidPosition pos b.length), b)
  else if b.readOnly then (.error .readOnly, b)
  else if bytes.isEmpty then (.ok (), b)
  else
    match b.makeRoom mem bytes.length with
    | (.error e, b') => (.error e, b')
    | (.ok (), b') => (.ok (), (b'.placeGap pos).fill bytes)

def insertByte (mem : Memory) (b : GapBuffer) (pos : Nat) (byte : UInt8) :
    Except BufferError Unit × GapBuffer :=
  b.insert mem pos [byte]

/-! ## Deleting -/

/-- Gives the `count` bytes after the gap to the gap. -/
def absorb (b : GapBuffer) (count : Nat) : GapBuffer :=
  { b with
    gapEnd := b.gapEnd + count
    modified := true
    counters := { b.counters with deletes := b.counters.deletes + 1 } }

def delete (b : GapBuffer) (start stop : Nat) : Except BufferError Unit × GapBuffer :=
  if stop < start ∨ b.length < stop then (.error (.outOfBounds start stop b.length), b)
  else if b.readOnly then (.error .readOnly, b)
  else if start = stop then (.ok (), b)
  else (.ok (), (b.placeGap start).absorb (stop - start))

def deleteByte (b : GapBuffer) (pos : Nat) : Except BufferError Unit × GapBuffer :=
  -- an empty text has no position to complain about, so the flag comes first here
  if b.isEmpty then (.error (if b.readOnly then .readOnly else .empty), b)
  else b.delete pos (pos + 1)

/-- Deletes the whole text and keeps the region. -/
def clear (b : GapBuffer) : Except BufferError Unit × GapBuffer :=
  b.delete 0 b.length

end TextStore.GapBuffer
