/-!
# What a buffer counts about itself

* `Counters` : how often a gap buffer was edited, moved and grown, and how large it became;
* `Counters.averageEditNanos` : the mean time of one insert or delete.

No counter influences what an operation answers.
-/

namespace TextStore

/-- Usage counters of one gap buffer. -/
structure Counters where
  /-- Accepted inserts of at least one byte. -/
  inserts : Nat := 0
  /-- Accepted deletions of at least one byte. -/
  deletes : Nat := 0
  /-- Times the gap changed its position. -/
  gapMoves : Nat := 0
  /-- Nanoseconds spent in operations. How long an operation takes is left out here, so none adds to
  it. -/
  nanos : Nat := 0
  /-- The longest text held so far. -/
  maxLength : Nat := 0
  /-- The largest region held so far. -/
  maxCapacity : Nat := 0
  /-- Times the region was replaced by a larger one. -/
  growths : Nat := 0
  deriving DecidableEq, Repr

/-- The largest number of nanoseconds a mean can report, `2 ^ 64 - 1`. -/
def maxNanos : Nat := 18446744073709551615

/-- The mean time of one edit, rounded down and capped at `maxNanos`; zero before the first edit. -/
def Counters.averageEditNanos (c : Counters) : Nat :=
  let edits := c.inserts + c.deletes
  if edits = 0 then 0 else min (c.nanos / edits) maxNanos

end TextStore
