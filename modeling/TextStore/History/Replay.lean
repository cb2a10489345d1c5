import TextStore.History.Commit

/-!
# Undo and redo

* `undo` : takes the current sequence back on a target, last operation first;
* `redo` : makes the next sequence again, first operation first.

Both close the open sequence first, answer with the cursor to restore, and leave the boundary where
it was when the target refuses a call.
-/

namespace TextStore.History

variable {σ : Type}

/-- Performs `step` for each operation in turn, up to the first one that is refused. -/
def replay (step : Operation → σ → Except String Unit × σ) :
    List Operation → σ → Except HistoryError Unit × σ
  | [], s => (.ok (), s)
  | op :: rest, s =>
    match step op s with
    | (.error reason, s') => (.error (.invalidState op.id reason), s')
    | (.ok (), s') => replay step rest s'

/-- Takes the current sequence back; the answer is the cursor before its first operation. -/
def undo (mem : Memory) (now : Nat) (target : ReplayTarget σ) (h : History) (s : σ) :
    Except HistoryError Nat × History × σ :=
  match h.closeSequence mem now with
  | (.error e, h) => (.error e, h, s)
  | (.ok (), h) =>
    match h.currentSequence? with
    | none => (.error .noUndo, h, s)
    | some seq =>
      let ops := h.operationsOf seq
      -- while this phase lasts, no edit would be recorded (`recordingAllowed`)
      let h := { h with phase := .replaying }
      match replay (fun op => op.revert target) ops.reverse s with
      | (.error e, s') => (.error e, { h with phase := .idle }, s')
      | (.ok (), s') =>
        (.ok ((ops.head?.map Operation.cursorBefore).getD 0),
          { h with phase := .idle, applied := h.applied - 1 }, s')

/-- Makes the next sequence again; the answer is the cursor after its last operation. -/
def redo (mem : Memory) (now : Nat) (target : ReplayTarget σ) (h : History) (s : σ) :
    Except HistoryError Nat × History × σ :=
  match h.closeSequence mem now with
  | (.error e, h) => (.error e, h, s)
  | (.ok (), h) =>
    match h.nextSequence? with
    | none => (.error .noRedo, h, s)
    | some seq =>
      let ops := h.operationsOf seq
      let h := { h with phase := .replaying }
      match replay (fun op => op.apply target) ops s with
      | (.error e, s') => (.error e, { h with phase := .idle }, s')
      | (.ok (), s') =>
        (.ok ((ops.getLast?.map Operation.cursorAfter).getD 0),
          { h with phase := .idle, applied := h.applied + 1 }, s')

end TextStore.History
