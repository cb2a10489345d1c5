import TextStore.History.Basic

/-!
# Closing a sequence

* `closeSequence` : commits the open sequence. What could be redone is thrown away, the sequence is
  put at the end, and the oldest sequences are evicted while a limit is exceeded;
* `dropRedoable`, `append`, `evictOldest` : these three steps.
-/

namespace TextStore.History

def dropRedoable (h : History) : History :=
  match h.nextSequence? with
  | none => h
  | some seq =>
    { h with
      operations := h.operations.take seq.start
      sequences := h.sequences.take h.applied
      heldBytes := h.heldBytes - Operation.totalBytes (h.operations.drop seq.start) }

def append (h : History) (s : OpenSequence) (now : Nat) : History :=
  let start := h.operations.length
  let operations := h.operations ++ s.operations
  let sequences := h.sequences ++
    [{ id := s.id, start, stop := operations.length, startedAt := s.startedAt, endedAt := now }]
  { h with
    operations
    sequences
    applied := sequences.length
    heldBytes := h.heldBytes + Operation.totalBytes s.operations }

/-- How many of the oldest sequences have to go, given that `applied` of the `count` sequences
from here on can be undone and hold `bytes` bytes, and the bytes left after that. The last
undoable sequence always stays. -/
def evictions (h : History) : List Sequence → (applied count bytes : Nat) → Nat × Nat
  | [], _, _, bytes => (0, bytes)
  | seq :: rest, applied, count, bytes =>
    if 1 < applied ∧ (h.settings.maxSequences < count ∨ h.settings.maxMemory < bytes) then
      match h.evictions rest (applied - 1) (count - 1)
          (bytes - Operation.totalBytes (h.operationsOf seq)) with
      | (evicted, left) => (evicted + 1, left)
    else (0, bytes)

/-- Evicts the oldest sequences while a limit is exceeded. -/
def evictOldest (h : History) : History :=
  match h.evictions h.sequences h.applied h.sequences.length h.heldBytes with
  | (0, _) => h
  | (evicted + 1, left) =>
    let dropped := match h.sequences[evicted]? with
      | some seq => seq.stop
      | none => 0
    { h with
      operations := h.operations.drop dropped
      sequences := (h.sequences.drop (evicted + 1)).map (Sequence.rebase dropped)
      applied := h.applied - (evicted + 1)
      heldBytes := left }

/-- Closes the open sequence and commits it; an empty one is dropped. When the history cannot take
its operations the sequence stays open. -/
def closeSequence (mem : Memory) (now : Nat) (h : History) : Except HistoryError Unit × History :=
  match h.opened with
  | none => (.ok (), h)
  | some s =>
    if s.operations.isEmpty then (.ok (), { h with opened := none, phase := .idle })
    else if mem.commit s.operations.length then
      let closed := { h with opened := none, phase := .idle }
      (.ok (), ((closed.dropRedoable).append s now).evictOldest)
    else (.error (.allocationFailed s.operations.length), { h with phase := .recording })

end TextStore.History
