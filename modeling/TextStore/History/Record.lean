import TextStore.History.Commit

/-!
# Recording edits

* `beginSequence` : opens a sequence by hand;
* `recordInsert`, `recordDelete`, `recordReplace` : record an edit. It joins the open sequence
  while the window of that sequence lasts; otherwise it starts a sequence of its own.
-/

namespace TextStore.History

/-- Opens a sequence; none is open before. -/
def startSequence (now : Nat) (h : History) : History :=
  { h with
    opened := some { id := h.nextSequenceId, startedAt := now }
    nextSequenceId := h.nextSequenceId + 1
    phase := .recording }

/-- Opens a sequence, after closing the one that is open. -/
def beginSequence (mem : Memory) (now : Nat) (h : History) : Except HistoryError Unit × History :=
  match h.closeSequence mem now with
  | (.error e, h') => (.error e, h')
  | (.ok (), h') => (.ok (), h'.startSequence now)

/-- Makes sure a sequence is open whose window has not passed. -/
def ensureOpen (mem : Memory) (now : Nat) (h : History) : Except HistoryError Unit × History :=
  match h.opened with
  | none => (.ok (), h.startSequence now)
  | some s =>
    if h.settings.windowMs < now - s.startedAt then h.beginSequence mem now else (.ok (), h)

def addOperation (mem : Memory) (now : Nat) (h : History) (position : Nat) (edit : Edit)
    (cursorBefore cursorAfter : Nat) : Except HistoryError Unit × History :=
  match h.opened with
  | none => (.ok (), h)
  | some s =>
    if mem.entry then
      let op : Operation :=
        { id := h.nextOperationId, position, edit, cursorBefore, cursorAfter, recordedAt := now }
      (.ok (),
        { h with
          opened := some { s with operations := s.operations ++ [op] }
          nextOperationId := h.nextOperationId + 1 })
    else (.error (.allocationFailed 1), h)

/-- Records an edit at `position`, unless recording is off. -/
def record (mem : Memory) (now : Nat) (h : History) (position : Nat) (edit : Edit)
    (cursorBefore cursorAfter : Nat) : Except HistoryError Unit × History :=
  if !h.recordingAllowed then (.ok (), h)
  else
    -- the texts are copied before a sequence is opened, so a refused copy leaves no trace
    match edit.refusedText? mem with
    | some size => (.error (.allocationFailed size), h)
    | none =>
      match h.ensureOpen mem now with
      | (.error e, h') => (.error e, h')
      | (.ok (), h') => h'.addOperation mem now position edit cursorBefore cursorAfter

def recordInsert (mem : Memory) (now : Nat) (h : History) (position : Nat) (text : List UInt8)
    (cursorBefore cursorAfter : Nat) : Except HistoryError Unit × History :=
  h.record mem now position (.insert text) cursorBefore cursorAfter

def recordDelete (mem : Memory) (now : Nat) (h : History) (position : Nat) (text : List UInt8)
    (cursorBefore cursorAfter : Nat) : Except HistoryError Unit × History :=
  h.record mem now position (.delete text) cursorBefore cursorAfter

def recordReplace (mem : Memory) (now : Nat) (h : History) (position : Nat)
    (deleted inserted : List UInt8) (cursorBefore cursorAfter : Nat) :
    Except HistoryError Unit × History :=
  h.record mem now position (.replace deleted inserted) cursorBefore cursorAfter

end TextStore.History
