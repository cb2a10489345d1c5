import TextStore.Gap.Read
import TextStore.History.Record
import TextStore.Store.Buffer

/-!
# Recorded edits of a stored buffer

* `splice` : replaces a range of the text, all or nothing;
* `recordSplice` : records that, as an insert or a delete where it is one;
* `edit` : both together, all or nothing.
-/

namespace TextStore

inductive EditError where
  | buffer (cause : BufferError)
  | history (cause : HistoryError)
  deriving DecidableEq, Repr

namespace StoredBuffer

/-- Replaces the text of `[start, stop)` by `text`, in the buffer only. When the insertion is
refused the removed text is put back. The answer is the removed text. -/
def splice (mem : Memory) (sb : StoredBuffer) (start stop : Nat) (text : List UInt8) :
    Except BufferError (List UInt8) × StoredBuffer :=
  match sb.buffer.extract mem start stop with
  | .error e => (.error e, sb)
  | .ok removed =>
    match sb.buffer.delete start stop with
    | (.error e, buffer) => (.error e, { sb with buffer })
    | (.ok (), buffer) =>
      match buffer.insert mem start text with
      | (.ok (), buffer) => (.ok removed, { sb with buffer })
      | (.error e, buffer) =>
        -- the deletion left a gap of this size, so no memory is asked for here
        match buffer.insert mem start removed with
        | (.error e', buffer) => (.error e', { sb with buffer })
        | (.ok (), buffer) => (.error e, { sb with buffer })

/-- Takes a splice back that was not recorded. -/
def unsplice (mem : Memory) (sb : StoredBuffer) (start : Nat) (removed inserted : List UInt8) :
    Except BufferError Unit × StoredBuffer :=
  match sb.buffer.delete start (start + inserted.length) with
  | (.error e, buffer) => (.error e, { sb with buffer })
  | (.ok (), buffer) =>
    match buffer.insert mem start removed with
    | (answer, buffer) => (answer, { sb with buffer })

/-- Records that `removed` at `start` was replaced by `text`, as an insert or a delete where it is
one. -/
def recordSplice (mem : Memory) (now : Nat) (sb : StoredBuffer) (cursor start : Nat)
    (removed text : List UInt8) : Except HistoryError Unit × StoredBuffer :=
  let after := start + text.length
  let (answer, history) :=
    if removed.isEmpty then sb.history.recordInsert mem now start text cursor after
    else if text.isEmpty then sb.history.recordDelete mem now start removed cursor start
    else sb.history.recordReplace mem now start removed text cursor after
  (answer, { sb with history })

/-- Replaces the text of `[start, stop)` by `text` and records it; the answer is the new cursor.
When recording is refused the buffer is put back. -/
def edit (mem : Memory) (now : Nat) (sb : StoredBuffer) (cursor start stop : Nat)
    (text : List UInt8) : Except EditError Nat × StoredBuffer :=
  match sb.splice mem start stop text with
  | (.error e, sb) => (.error (.buffer e), sb)
  | (.ok removed, sb) =>
    match sb.recordSplice mem now cursor start removed text with
    | (.ok (), sb) => (.ok (start + text.length), sb)
    | (.error e, sb) =>
      match sb.unsplice mem start removed text with
      | (.error e', sb) => (.error (.buffer e'), sb)
      | (.ok (), sb) => (.error (.history e), sb)

end StoredBuffer

end TextStore
