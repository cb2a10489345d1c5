import TextStore.Gap.Edit
import TextStore.History.Replay

/-!
# Stored buffers

A gap buffer with its history, its id and name, and when it was last used.

* `StoredBuffer` : the parts;
* `displayName`, `flags` : how it presents itself;
* `GapBuffer.replayTarget` : a gap buffer as what a history is replayed on;
* `undo`, `redo` : replay its history on its own text;
* `idleFor` : how long it has not been switched to.
-/

namespace TextStore

/-- A gap buffer as a target; a refusal is reported in the words of the buffer's error. -/
def GapBuffer.replayTarget (mem : Memory) : ReplayTarget GapBuffer where
  insertAt pos text b :=
    match b.insert mem pos text with
    | (answer, b') => (answer.mapError BufferError.message, b')
  deleteSpan start stop b :=
    match b.delete start stop with
    | (answer, b') => (answer.mapError BufferError.message, b')

/-- How long a stored buffer is kept. -/
inductive Lifetime where
  /-- Until it is deleted or goes stale; such a buffer has no name. -/
  | scratch
  /-- Until it is deleted; such a buffer has a name. -/
  | persistent
  deriving DecidableEq, Repr

inductive Flag where
  | scratch
  | persistent
  | readOnly
  | modified
  deriving DecidableEq, Repr

namespace Flag

def label : Flag → String
  | scratch => "SCRATCH"
  | persistent => "PERSISTENT"
  | readOnly => "READ_ONLY"
  | modified => "MODIFIED"

def bit : Flag → Nat
  | scratch => 1
  | persistent => 2
  | readOnly => 4
  | modified => 8

end Flag

structure StoredBuffer where
  id : Nat
  name : Option String
  lifetime : Lifetime
  buffer : GapBuffer
  history : History
  createdAt : Nat
  /-- When it was last switched to, or created. -/
  lastAccess : Nat
  /-- How often it was switched to. -/
  accessCount : Nat := 0
  deriving DecidableEq, Repr

namespace StoredBuffer

/-- A new buffer; one without a name is a scratch buffer. -/
def create (id : Nat) (name : Option String) (buffer : GapBuffer) (settings : HistorySettings)
    (now : Nat) : StoredBuffer where
  id := id
  name := name
  lifetime := if name.isSome then .persistent else .scratch
  buffer := buffer
  history := { settings }
  createdAt := now
  lastAccess := now

/-- Whether the buffer is removed once it is stale. -/
def isScratch (sb : StoredBuffer) : Bool := sb.lifetime == .scratch

/-- The name, or a name made from the id. -/
def displayName (sb : StoredBuffer) : String :=
  match sb.name with
  | some name => name
  | none => s!"*scratch-{sb.id}*"

/-- The flags that are set, lowest bit first. -/
def flags (sb : StoredBuffer) : List Flag :=
  (match sb.lifetime with
    | .scratch => [.scratch]
    | .persistent => [.persistent]) ++
  (if sb.buffer.readOnly then [.readOnly] else []) ++
  (if sb.buffer.modified then [.modified] else [])

def flagBits (sb : StoredBuffer) : Nat := sb.flags.foldr (fun flag bits => flag.bit + bits) 0

def setReadOnly (sb : StoredBuffer) (on : Bool) : StoredBuffer :=
  { sb with buffer := sb.buffer.setReadOnly on }

def undo (mem : Memory) (now : Nat) (sb : StoredBuffer) : Except HistoryError Nat × StoredBuffer :=
  match sb.history.undo mem now (GapBuffer.replayTarget mem) sb.buffer with
  | (answer, history, buffer) => (answer, { sb with history, buffer })

def redo (mem : Memory) (now : Nat) (sb : StoredBuffer) : Except HistoryError Nat × StoredBuffer :=
  match sb.history.redo mem now (GapBuffer.replayTarget mem) sb.buffer with
  | (answer, history, buffer) => (answer, { sb with history, buffer })

/-- Milliseconds since the buffer was last switched to, or created. -/
def idleFor (sb : StoredBuffer) (now : Nat) : Nat := now - sb.lastAccess

/-- Counts a switch to the buffer. -/
def touch (sb : StoredBuffer) (now : Nat) : StoredBuffer :=
  { sb with lastAccess := now, accessCount := sb.accessCount + 1 }

/-- Names the buffer, which makes it persistent. -/
def setName (sb : StoredBuffer) (name : String) : StoredBuffer :=
  { sb with name := some name, lifetime := .persistent }

end StoredBuffer

end TextStore
