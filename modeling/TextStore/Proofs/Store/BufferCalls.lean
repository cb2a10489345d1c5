import TextStore.Proofs.Gap.Refinement
import TextStore.Proofs.History.Calls
import TextStore.Store.Buffer

/-!
# What is done to one buffer

A gap buffer is changed by its own operations and by replays of a history, which make calls on it
one after the other until one is refused.

* `ReplayCall.gapOp` : a call of a replay is an operation of the buffer;
* `replay_logged` : whatever the history, a replay makes calls that are due and comes to the same end
  when they are logged;
* `BufferCall` : an operation, or an undo or redo of any history at all. `performed` lists the
  operations that it comes to, each with the memory it finds;
* `runCalls_eq_run` : calls in turn do to the buffer what the operations that they come to do.
-/

namespace TextStore

/-- The operation of a gap buffer that a call of a replay asks for. -/
def ReplayCall.gapOp : ReplayCall → GapOp
  | insertAt pos text => .insert pos text
  | deleteSpan start stop => .delete start stop

theorem ReplayCall.issue_replayTarget (mem : Memory) (call : ReplayCall) (b : GapBuffer) :
    (call.issue (GapBuffer.replayTarget mem) b).2 = (call.gapOp.perform mem b).2 := by
  cases call <;> rfl

/-! ## Replays of any history -/

/-- With or without a log, a replay makes calls and ends as they end. -/
theorem replay_logged {σ : Type} (mem : Memory) (now : Nat) (d : Direction)
    (target : ReplayTarget σ) (h : History) (s : σ) :
    ∃ answer h' s' log due outcome,
      d.replay mem now target.logged h (s, []) = (answer, h', s', log) ∧
      d.replay mem now target h s = (answer, h', s') ∧ Issued target due s outcome s' log := by
  have hnone : Issued target [] s (.ok ()) s [] := .whole rfl
  cases d with
  | back =>
    simp only [Direction.replay, History.undo]
    rcases h.closeSequence mem now with ⟨e | ⟨⟩, h₁⟩
    · exact ⟨_, _, _, _, _, _, rfl, rfl, hnone⟩
    simp only
    rcases h₁.currentSequence? with _ | seq
    · exact ⟨_, _, _, _, _, _, rfl, rfl, hnone⟩
    obtain ⟨outcome, s', log, hlogged, hplain, hissued⟩ := issueAll_logged target
      (dueCalls Operation.revertCalls (h₁.operationsOf seq).reverse) s []
    simp only [(makes_revert target).replay_eq_issueAll, (makes_revert _).replay_eq_issueAll,
      hlogged, hplain]
    rcases outcome with e | ⟨⟩ <;> exact ⟨_, _, _, _, _, _, rfl, rfl, hissued⟩
  | on =>
    simp only [Direction.replay, History.redo]
    rcases h.closeSequence mem now with ⟨e | ⟨⟩, h₁⟩
    · exact ⟨_, _, _, _, _, _, rfl, rfl, hnone⟩
    simp only
    rcases h₁.nextSequence? with _ | seq
    · exact ⟨_, _, _, _, _, _, rfl, rfl, hnone⟩
    obtain ⟨outcome, s', log, hlogged, hplain, hissued⟩ := issueAll_logged target
      (dueCalls Operation.applyCalls (h₁.operationsOf seq)) s []
    simp only [(makes_apply target).replay_eq_issueAll, (makes_apply _).replay_eq_issueAll,
      hlogged, hplain]
    rcases outcome with e | ⟨⟩ <;> exact ⟨_, _, _, _, _, _, rfl, rfl, hissued⟩

namespace GapBuffer

variable {b b' : GapBuffer} {mem : Memory}

/-- The operations of the calls in a log. -/
def loggedOps (mem : Memory) (log : List AnsweredCall) : List (Memory × GapOp) :=
  log.map fun made => (mem, made.call.gapOp)

theorem Accepts.run {due : List DueCall} (h : Accepts (GapBuffer.replayTarget mem) due b b') :
    (b.run (loggedOps mem (accepted due))).2 = b' := by
  induction due generalizing b with
  | nil => exact h
  | cons first rest ih =>
    obtain ⟨mid, hfirst, hrest⟩ := h
    have hmid := first.call.issue_replayTarget mem b
    rw [hfirst] at hmid
    show (run (first.call.gapOp.perform mem b).2 (loggedOps mem (accepted rest))).2 = b'
    rw [← hmid]
    exact ih hrest

/-- The calls of a replay, up to the refused one, lead to where the replay leaves the buffer. -/
theorem Issued.run {due : List DueCall} {outcome : Except HistoryError Unit}
    {log : List AnsweredCall} (h : Issued (GapBuffer.replayTarget mem) due b outcome b' log) :
    (b.run (loggedOps mem log)).2 = b' := by
  cases h with
  | whole haccepts => exact Accepts.run haccepts
  | @cut before after refused mid _ reason hdue haccepts hrefused =>
    have hlast := refused.call.issue_replayTarget mem mid
    rw [hrefused] at hlast
    rw [loggedOps, List.map_append, run_append_snd, ← loggedOps, Accepts.run haccepts]
    exact hlast.symm

end GapBuffer

/-! ## Calls on a buffer -/

/-- Something done to a buffer: one of its operations, or a replay of a history against it. The
history may be any, so also the one that went with the buffer all along. -/
inductive BufferCall where
  | perform (mem : Memory) (op : GapOp)
  | replay (mem : Memory) (now : Nat) (d : Direction) (h : History)

namespace BufferCall

/-- The buffer after the call. -/
def apply (b : GapBuffer) : BufferCall → GapBuffer
  | perform mem op => (op.perform mem b).2
  | replay mem now d h => (d.replay mem now (GapBuffer.replayTarget mem) h b).2.2

/-- The operations that the call comes to, the refused one of a replay included. -/
def performed (b : GapBuffer) : BufferCall → List (Memory × GapOp)
  | perform mem op => [(mem, op)]
  | replay mem now d h =>
    GapBuffer.loggedOps mem
      (d.replay mem now (GapBuffer.replayTarget mem).logged h (b, [])).2.2.2

theorem run_performed (b : GapBuffer) (call : BufferCall) :
    (b.run (call.performed b)).2 = call.apply b := by
  cases call with
  | perform mem op => rfl
  | replay mem now d h =>
    obtain ⟨answer, h', b', log, due, outcome, hlogged, hplain, hissued⟩ :=
      replay_logged mem now d (GapBuffer.replayTarget mem) h b
    simp only [performed, apply, hlogged, hplain]
    exact GapBuffer.Issued.run hissued

end BufferCall

namespace GapBuffer

/-- The buffer after calls in turn. -/
def runCalls (b : GapBuffer) (calls : List BufferCall) : GapBuffer :=
  calls.foldl BufferCall.apply b

/-- The operations that calls in turn come to. -/
def performedAll (b : GapBuffer) : List BufferCall → List (Memory × GapOp)
  | [] => []
  | call :: rest => call.performed b ++ performedAll (call.apply b) rest

theorem runCalls_eq_run (b : GapBuffer) (calls : List BufferCall) :
    b.runCalls calls = (b.run (b.performedAll calls)).2 := by
  induction calls generalizing b with
  | nil => rfl
  | cons call rest ih =>
    rw [performedAll, run_append_snd, BufferCall.run_performed]
    exact ih (call.apply b)

end GapBuffer

end TextStore
