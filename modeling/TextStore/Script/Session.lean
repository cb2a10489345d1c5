import TextStore.Script.Step
import TextStore.Store.Edit
import TextStore.Store.Lifecycle
import TextStore.Text.Utf8

/-!
# Sessions

What a script acts on: a store, the cursor and the time. Each edit of the current buffer is recorded
in its history, so undo and redo in a script behave as they do behind an editor.

* `StepError` : why a step is refused, with its wording;
* `Session` : the state;
* `Session.apply` : performs one step.
-/

namespace TextStore

inductive StepError where
  /-- The step acts on the current buffer and there is none. -/
  | noCurrentBuffer
  | buffer (cause : BufferError)
  | history (cause : HistoryError)
  | store (cause : StoreError)
  deriving DecidableEq, Repr

namespace StepError

def message : StepError → String
  | noCurrentBuffer => "no current buffer"
  | buffer cause => cause.message
  | history cause => cause.message
  | store cause => cause.message

def ofEdit : EditError → StepError
  | .buffer cause => buffer cause
  | .history cause => history cause

end StepError

structure Session where
  store : Store := {}
  /-- A position in the current buffer. -/
  cursor : Nat := 0
  /-- The time in milliseconds. -/
  now : Nat := 0
  deriving DecidableEq, Repr

namespace Session

/-! ## The cursor -/

/-- The end of the current buffer's text, or zero when no buffer is current. -/
def endOfCurrent (st : Store) : Nat :=
  match st.currentBuffer? with
  | none => 0
  | some sb => sb.buffer.length

/-- Puts the cursor at the end of the current buffer's text. -/
def syncCursor (s : Session) : Session := { s with cursor := endOfCurrent s.store }

/-! ## Acting on the store and on the current buffer -/

/-- Takes over the answer and the state of an operation on the store. -/
def settle {α : Type} (s : Session) (result : Except StoreError α × Store) :
    Except StepError Unit × Session :=
  match result with
  | (.error e, store) => (.error (.store e), { s with store })
  | (.ok _, store) => (.ok (), { s with store })

def onCurrent {α : Type} (s : Session)
    (f : StoredBuffer → Except StepError α × StoredBuffer) : Except StepError α × Session :=
  match s.store.current with
  | none => (.error .noCurrentBuffer, s)
  | some id =>
    match s.store.update id f with
    | (none, _) => (.error .noCurrentBuffer, s)
    | (some answer, store) => (answer, { s with store })

/-- Performs `f` on the current buffer and moves the cursor to where it answers. -/
def moving (s : Session) (f : StoredBuffer → Except StepError Nat × StoredBuffer) :
    Except StepError Unit × Session :=
  match s.onCurrent f with
  | (.error e, s) => (.error e, s)
  | (.ok cursor, s) => (.ok (), { s with cursor })

def edit (mem : Memory) (s : Session) (start stop : Nat) (text : String) :
    Except StepError Unit × Session :=
  s.moving fun sb =>
    match sb.edit mem s.now s.cursor start stop (Utf8.encode text) with
    | (answer, sb) => (answer.mapError .ofEdit, sb)

def replay (s : Session) (f : StoredBuffer → Except HistoryError Nat × StoredBuffer) :
    Except StepError Unit × Session :=
  s.moving fun sb =>
    match f sb with
    | (answer, sb) => (answer.mapError .history, sb)

def onHistory (s : Session) (f : History → Except HistoryError Unit × History) :
    Except StepError Unit × Session :=
  s.onCurrent fun sb =>
    match f sb.history with
    | (answer, history) => (answer.mapError .history, { sb with history })

/-! ## Steps -/

/-- Performs a step, without the cursor following a change of the current buffer. -/
def perform (mem : Memory) (s : Session) : Step → Except StepError Unit × Session
  | .create name => s.settle (s.store.create mem s.now name)
  | .scratch => s.settle (s.store.createScratch mem s.now)
  | .switch name =>
    match s.settle (s.store.switchToName s.now name) with
    | (.error e, s) => (.error e, s)
    -- `apply` does not see a switch to the buffer that is current already
    | (.ok (), s) => (.ok (), s.syncCursor)
  | .rename name =>
    match s.store.current with
    | none => (.error .noCurrentBuffer, s)
    | some id => s.settle (s.store.rename id name)
  | .delete name => s.settle (s.store.deleteName name)
  | .insert pos text => s.edit mem pos pos text
  | .erase start stop => s.edit mem start stop ""
  | .replace start stop text => s.edit mem start stop text
  | .beginSequence => s.onHistory fun h => h.beginSequence mem s.now
  | .endSequence => s.onHistory fun h => h.closeSequence mem s.now
  | .undo => s.replay fun sb => sb.undo mem s.now
  | .redo => s.replay fun sb => sb.redo mem s.now
  | .readOnly enabled => s.onCurrent fun sb => (.ok (), sb.setReadOnly enabled)
  | .cleanup maxAgeMs => (.ok (), { s with store := (s.store.removeStale s.now maxAgeMs).2 })
  | .pause ms => (.ok (), { s with now := s.now + ms })

/-- Performs a step. When another buffer has become current, the cursor goes to its end. -/
def apply (mem : Memory) (s : Session) (step : Step) : Except StepError Unit × Session :=
  match s.perform mem step with
  | (.error e, s') => (.error e, s')
  | (.ok (), s') => (.ok (), if s'.store.current = s.store.current then s' else s'.syncCursor)

end Session

end TextStore
