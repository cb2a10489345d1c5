import TextStore.History.Operation
import TextStore.Settings

/-!
# The history of one buffer

Operations are recorded into an open sequence. Closing it commits it to a linear history, of which
the first `applied` sequences can be undone and the others redone. The operations of all committed
sequences stand in one list in history order, so both ends of the history are cut in one go.

* `HistoryError` : why an operation is refused, with its wording;
* `Sequence`, `OpenSequence` : a committed group of operations, and one that still takes some;
* `History` : the sequences, the boundary between undo and redo, and the limits;
* `canUndo`, `canRedo`, `currentSequence?`, `operationsOf` : what the history holds;
* `setEnabled`, `clear` : turn recording on or off, and forget everything.

Times are milliseconds of one clock that never runs backwards.
-/

namespace TextStore

inductive HistoryError where
  /-- No sequence is left to undo. -/
  | noUndo
  /-- No sequence is left to redo. -/
  | noRedo
  /-- Room for this many entries, or for a text of this many bytes, was refused. -/
  | allocationFailed (requested : Nat)
  /-- The target refused the replay of an operation for the given reason. -/
  | invalidState (operation : Nat) (reason : String)
  deriving DecidableEq, Repr

def HistoryError.message : HistoryError → String
  | noUndo => "nothing to undo"
  | noRedo => "nothing to redo"
  | allocationFailed requested => s!"failed to allocate {requested} history entries"
  | invalidState operation reason => s!"replay of operation {operation} failed: {reason}"

/-- A committed group of operations, undone and redone as one. It owns the operations
`[start, stop)` of its history's list. -/
structure Sequence where
  id : Nat
  start : Nat
  stop : Nat
  startedAt : Nat
  endedAt : Nat
  deriving DecidableEq, Repr

def Sequence.operationCount (seq : Sequence) : Nat := seq.stop - seq.start

/-- The same sequence after the first `count` operations were dropped from the list. -/
def Sequence.rebase (count : Nat) (seq : Sequence) : Sequence :=
  { seq with start := seq.start - count, stop := seq.stop - count }

/-- A sequence that still takes operations. -/
structure OpenSequence where
  id : Nat
  /-- When its window began. -/
  startedAt : Nat
  /-- The operations so far, in the order they were recorded. -/
  operations : List Operation := []
  deriving DecidableEq, Repr

inductive Phase where
  /-- No sequence is open. -/
  | idle
  /-- A sequence is open. -/
  | recording
  /-- An undo or redo is under way, and nothing is recorded. -/
  | replaying
  deriving DecidableEq, Repr

structure History where
  settings : HistorySettings
  /-- The committed sequences, oldest first. -/
  sequences : List Sequence := []
  /-- The operations of the committed sequences, oldest first. -/
  operations : List Operation := []
  /-- The number of sequences that can be undone. -/
  applied : Nat := 0
  /-- The sequence that takes operations now. -/
  opened : Option OpenSequence := none
  phase : Phase := .idle
  /-- Whether edits are recorded at all. -/
  enabled : Bool := true
  /-- The bytes of text held by committed sequences. -/
  heldBytes : Nat := 0
  nextOperationId : Nat := 1
  nextSequenceId : Nat := 1
  deriving DecidableEq, Repr

namespace History

def operationsOf (h : History) (seq : Sequence) : List Operation :=
  (h.operations.drop seq.start).take (seq.stop - seq.start)

def openOperations (h : History) : List Operation :=
  match h.opened with
  | none => []
  | some s => s.operations

/-- Whether something could be undone, counting the open sequence. -/
def canUndo (h : History) : Bool := decide (0 < h.applied) || !h.openOperations.isEmpty

/-- Whether something could be redone. An open sequence with operations hides what can be redone,
because committing it throws that away. -/
def canRedo (h : History) : Bool :=
  h.openOperations.isEmpty && decide (h.applied < h.sequences.length)

def undoCount (h : History) : Nat := h.applied

def redoCount (h : History) : Nat := h.sequences.length - h.applied

/-- The sequence that the next undo takes back. -/
def currentSequence? (h : History) : Option Sequence :=
  match h.applied with
  | 0 => none
  | n + 1 => h.sequences[n]?

/-- The sequence that the next redo makes again. -/
def nextSequence? (h : History) : Option Sequence := h.sequences[h.applied]?

/-- Whether an edit would be recorded. -/
def recordingAllowed (h : History) : Bool := h.enabled && h.phase != .replaying

def setEnabled (h : History) (on : Bool) : History := { h with enabled := on }

/-- Forgets the sequences, the open one included. Ids go on from where they were. -/
def clear (h : History) : History :=
  { h with
    sequences := []
    operations := []
    applied := 0
    opened := none
    phase := .idle
    heldBytes := 0 }

end History

end TextStore
