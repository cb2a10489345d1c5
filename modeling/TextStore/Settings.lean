/-!
# Limits and settings

* `HistorySettings` : how much history a buffer keeps and how long one sequence stays open;
* `Settings` : how many buffers there may be, how large they start, and their history.
-/

namespace TextStore

/-- The limits of one buffer's history. -/
structure HistorySettings where
  /-- Sequences kept at most. -/
  maxSequences : Nat := 100
  /-- Bytes of recorded text kept at most. -/
  maxMemory : Nat := 1048576
  /-- Milliseconds after its start during which an open sequence takes operations. -/
  windowMs : Nat := 500
  deriving DecidableEq, Repr

structure Settings where
  /-- The capacity a new buffer starts with. -/
  initialCapacity : Nat := 1024
  /-- Buffers of any kind held at most. -/
  maxBuffers : Nat := 50
  /-- Scratch buffers held at most. -/
  maxScratchBuffers : Nat := 10
  history : HistorySettings := {}
  deriving DecidableEq, Repr

end TextStore
