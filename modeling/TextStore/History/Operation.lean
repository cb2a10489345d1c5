import TextStore.Memory

/-!
# Recorded edits

* `Edit` : the text an edit took out and the text it put in;
* `Operation` : an edit with its position and the cursor before and after it;
* `ReplayTarget σ` : the two calls that a replay makes on a state `σ`; a call may fail with a text;
* `Operation.revert`, `Operation.apply` : the calls that undo and redo an operation;
* `ReplayCall`, `CallLog` : a target that only writes the calls down, and can refuse one of them.
-/

namespace TextStore

/-! ## Edits and operations -/

inductive Edit where
  /-- The text was inserted. -/
  | insert (text : List UInt8)
  /-- The text was deleted. -/
  | delete (text : List UInt8)
  /-- The first text was replaced by the second. -/
  | replace (deleted inserted : List UInt8)
  deriving DecidableEq, Repr

namespace Edit

/-- The text the edit left in the buffer. -/
def insertedText : Edit → List UInt8
  | insert text => text
  | delete _ => []
  | replace _ inserted => inserted

/-- The text the edit took out of the buffer. -/
def deletedText : Edit → List UInt8
  | insert _ => []
  | delete text => text
  | replace deleted _ => deleted

/-- The texts of the edit, in the order in which they are copied. -/
def texts : Edit → List (List UInt8)
  | insert text => [text]
  | delete text => [text]
  | replace deleted inserted => [deleted, inserted]

/-- The size of the first text whose copy memory refuses. -/
def refusedText? (mem : Memory) (edit : Edit) : Option Nat :=
  (edit.texts.map List.length).find? fun size => !mem.recorded size

end Edit

structure Operation where
  /-- Operations of one history are numbered in the order they were recorded. -/
  id : Nat
  /-- The text position the edit starts at. -/
  position : Nat
  edit : Edit
  cursorBefore : Nat
  cursorAfter : Nat
  /-- When it was recorded, in milliseconds. -/
  recordedAt : Nat
  deriving DecidableEq, Repr

namespace Operation

/-- The bytes of text the operation holds. -/
def heldBytes (op : Operation) : Nat :=
  op.edit.insertedText.length + op.edit.deletedText.length

/-- The bytes of text several operations hold. -/
def totalBytes : List Operation → Nat
  | [] => 0
  | op :: rest => op.heldBytes + totalBytes rest

end Operation

/-! ## Replaying on a target -/

/-- The two edits a replay asks for. Each answers with the state afterwards. -/
structure ReplayTarget (σ : Type) where
  /-- Inserts a text at a position. -/
  insertAt : Nat → List UInt8 → σ → Except String Unit × σ
  /-- Deletes the text from the first position up to the second. -/
  deleteSpan : Nat → Nat → σ → Except String Unit × σ

namespace Operation

variable {σ : Type}

/-- Takes the edit back on `target`. -/
def revert (target : ReplayTarget σ) (op : Operation) (s : σ) : Except String Unit × σ :=
  match op.edit with
  | .insert text => target.deleteSpan op.position (op.position + text.length) s
  | .delete text => target.insertAt op.position text s
  | .replace deleted inserted =>
    match target.deleteSpan op.position (op.position + inserted.length) s with
    | (.error reason, s') => (.error reason, s')
    | (.ok (), s') => target.insertAt op.position deleted s'

/-- Makes the edit again on `target`. -/
def apply (target : ReplayTarget σ) (op : Operation) (s : σ) : Except String Unit × σ :=
  match op.edit with
  | .insert text => target.insertAt op.position text s
  | .delete text => target.deleteSpan op.position (op.position + text.length) s
  | .replace deleted inserted =>
    match target.deleteSpan op.position (op.position + deleted.length) s with
    | (.error reason, s') => (.error reason, s')
    | (.ok (), s') => target.insertAt op.position inserted s'

end Operation

/-! ## A target that keeps a log -/

inductive ReplayCall where
  | insertAt (pos : Nat) (text : List UInt8)
  | deleteSpan (start stop : Nat)
  deriving DecidableEq, Repr

/-- A target without text that writes every call down, oldest first. -/
structure CallLog where
  calls : List ReplayCall := []
  /-- The number of the call that fails, counted from zero. -/
  failAt : Option Nat := none
  /-- The text it fails with. -/
  reason : String := "refused"
  deriving DecidableEq, Repr

namespace CallLog

/-- Writes a call down and answers it. -/
def note (log : CallLog) (call : ReplayCall) : Except String Unit × CallLog :=
  let answer := if log.failAt = some log.calls.length then .error log.reason else .ok ()
  (answer, { log with calls := log.calls ++ [call] })

def replayTarget : ReplayTarget CallLog where
  insertAt pos text log := log.note (.insertAt pos text)
  deleteSpan start stop log := log.note (.deleteSpan start stop)

end CallLog

end TextStore
