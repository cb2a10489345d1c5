import TextStore.Gap.Lines
import TextStore.Data.Settings
import TextStore.Data.Json
import TextStore.Store.Basic

/-!
# Snapshots

A snapshot of a store for diagnosis: the geometry, flags, history depth and counters of every
buffer.

* `BufferSnapshot`, `Snapshot` : the snapshots;
* `Snapshot.capture` : takes one;
* `Snapshot.withoutTimes` : drops what depends on the clock, so that two runs can be compared;
* `Snapshot.toJson` : the snapshot as JSON text.
-/

namespace TextStore

structure BufferSnapshot where
  id : Nat
  name : Option String
  displayName : String
  flags : List Flag
  length : Nat
  capacity : Nat
  gapPosition : Nat
  gapLength : Nat
  lineCount : Nat
  accessCount : Nat
  idleMs : Nat
  undoCount : Nat
  redoCount : Nat
  operationCount : Nat
  openOperations : Nat
  heldBytes : Nat
  counters : Counters
  deriving DecidableEq, Repr

structure Snapshot where
  current : Option Nat
  bufferCount : Nat
  scratchCount : Nat
  settings : Settings
  buffers : List BufferSnapshot
  deriving DecidableEq, Repr

namespace BufferSnapshot

def capture (now : Nat) (sb : StoredBuffer) : BufferSnapshot where
  id := sb.id
  name := sb.name
  displayName := sb.displayName
  flags := sb.flags
  length := sb.buffer.length
  capacity := sb.buffer.capacity
  gapPosition := sb.buffer.gapStart
  gapLength := sb.buffer.gapLength
  lineCount := sb.buffer.lineCount
  accessCount := sb.accessCount
  idleMs := sb.idleFor now
  undoCount := sb.history.undoCount
  redoCount := sb.history.redoCount
  operationCount := sb.history.operations.length
  openOperations := sb.history.openOperations.length
  heldBytes := sb.history.heldBytes
  counters := sb.buffer.counters

/-- The snapshot with every measured time at zero. -/
def withoutTimes (d : BufferSnapshot) : BufferSnapshot :=
  { d with idleMs := 0, counters := { d.counters with nanos := 0 } }

/-- Nanoseconds as whole seconds and the rest. -/
def encodeDuration (nanos : Nat) : Datum :=
  .record [("secs", .nat (nanos / 1000000000)), ("nanos", .nat (nanos % 1000000000))]

def encodeCounters (c : Counters) : Datum :=
  .record
    [("insert_count", .nat c.inserts),
      ("delete_count", .nat c.deletes),
      ("move_gap_count", .nat c.gapMoves),
      ("total_op_time", encodeDuration c.nanos),
      ("max_size", .nat c.maxLength),
      ("max_capacity", .nat c.maxCapacity),
      ("grow_count", .nat c.growths)]

def encode (d : BufferSnapshot) : Datum :=
  .record
    [("id", .nat d.id),
      ("name", match d.name with
        | some name => .text name
        | none => .null),
      ("display_name", .text d.displayName),
      ("flags", .list (d.flags.map fun flag => .text flag.label)),
      ("len", .nat d.length),
      ("capacity", .nat d.capacity),
      ("gap_position", .nat d.gapPosition),
      ("gap_len", .nat d.gapLength),
      ("line_count", .nat d.lineCount),
      ("access_count", .nat d.accessCount),
      ("idle_ms", .nat d.idleMs),
      ("history", .record
        [("undo_count", .nat d.undoCount),
          ("redo_count", .nat d.redoCount),
          ("operation_count", .nat d.operationCount),
          ("pending_operations", .nat d.openOperations),
          ("memory_bytes", .nat d.heldBytes)]),
      ("stats", encodeCounters d.counters)]

end BufferSnapshot

namespace Snapshot

def capture (now : Nat) (st : Store) : Snapshot where
  current := st.current
  bufferCount := st.size
  scratchCount := st.scratchCount
  settings := st.settings
  buffers := st.buffers.map (BufferSnapshot.capture now)

/-- The snapshot with every measured time at zero. -/
def withoutTimes (d : Snapshot) : Snapshot :=
  { d with buffers := d.buffers.map BufferSnapshot.withoutTimes }

def encode (d : Snapshot) : Datum :=
  .record
    [("current", match d.current with
        | some id => .nat id
        | none => .null),
      ("buffer_count", .nat d.bufferCount),
      ("scratch_count", .nat d.scratchCount),
      ("config", d.settings.encode),
      ("buffers", .list (d.buffers.map BufferSnapshot.encode))]

def toJson (d : Snapshot) : String := d.encode.toJson

end Snapshot

end TextStore
