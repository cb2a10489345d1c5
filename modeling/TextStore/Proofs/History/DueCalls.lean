import TextStore.History.Replay

/-!
# The calls that are due

Taking operations back and making them again is told by the calls it needs, in order.

* `Operation.revertCalls`, `Operation.applyCalls` : the calls that take an operation back and make it
  again; `DueCall` names the operation a call belongs to;
* `issueAll` : calls in turn, up to the first one that is refused. A replay is that
  (`replay_revertCalls`, `replay_applyCalls`).
-/

namespace TextStore

variable {σ : Type}

namespace Operation

def revertCalls (op : Operation) : List ReplayCall :=
  match op.edit with
  | .insert text => [.deleteSpan op.position (op.position + text.length)]
  | .delete text => [.insertAt op.position text]
  | .replace deleted inserted =>
    [.deleteSpan op.position (op.position + inserted.length), .insertAt op.position deleted]

def applyCalls (op : Operation) : List ReplayCall :=
  match op.edit with
  | .insert text => [.insertAt op.position text]
  | .delete text => [.deleteSpan op.position (op.position + text.length)]
  | .replace deleted inserted =>
    [.deleteSpan op.position (op.position + deleted.length), .insertAt op.position inserted]

end Operation

def ReplayCall.issue (target : ReplayTarget σ) : ReplayCall → σ → Except String Unit × σ
  | insertAt pos text => target.insertAt pos text
  | deleteSpan start stop => target.deleteSpan start stop

/-- A call that a replay has to make, with the id of the operation it is for. -/
structure DueCall where
  operation : Nat
  call : ReplayCall
  deriving DecidableEq, Repr

/-- The calls `callsOf` gives for each operation in turn. -/
def dueCalls (callsOf : Operation → List ReplayCall) (ops : List Operation) : List DueCall :=
  ops.flatMap fun op => (callsOf op).map fun call => ⟨op.id, call⟩

/-- Makes the calls in turn, up to the first one that is refused. -/
def issueAll (target : ReplayTarget σ) : List DueCall → σ → Except HistoryError Unit × σ
  | [], s => (.ok (), s)
  | due :: rest, s =>
    match due.call.issue target s with
    | (.error reason, s') => (.error (.invalidState due.operation reason), s')
    | (.ok (), s') => issueAll target rest s'

/-- One operation of a replay makes its calls, and the others follow when none is refused. -/
def Makes (target : ReplayTarget σ) (step : Operation → σ → Except String Unit × σ)
    (callsOf : Operation → List ReplayCall) : Prop :=
  ∀ op rest s, issueAll target ((callsOf op).map (DueCall.mk op.id) ++ rest) s =
    match step op s with
    | (.error reason, s') => (.error (.invalidState op.id reason), s')
    | (.ok (), s') => issueAll target rest s'

theorem makes_revert (target : ReplayTarget σ) :
    Makes target (fun op => op.revert target) Operation.revertCalls := by
  rintro ⟨id, position, edit, cursorBefore, cursorAfter, recordedAt⟩ rest s
  cases edit with
  | insert text => rfl
  | delete text => rfl
  | replace deleted inserted =>
    simp only [Operation.revertCalls, Operation.revert, List.map_cons, List.map_nil, List.cons_append,
      List.nil_append, issueAll, ReplayCall.issue]
    rcases target.deleteSpan position (position + inserted.length) s with ⟨reason | ⟨⟩, s'⟩ <;> rfl

theorem makes_apply (target : ReplayTarget σ) :
    Makes target (fun op => op.apply target) Operation.applyCalls := by
  rintro ⟨id, position, edit, cursorBefore, cursorAfter, recordedAt⟩ rest s
  cases edit with
  | insert text => rfl
  | delete text => rfl
  | replace deleted inserted =>
    simp only [Operation.applyCalls, Operation.apply, List.map_cons, List.map_nil, List.cons_append,
      List.nil_append, issueAll, ReplayCall.issue]
    rcases target.deleteSpan position (position + deleted.length) s with ⟨reason | ⟨⟩, s'⟩ <;> rfl

theorem Makes.replay_eq_issueAll {target : ReplayTarget σ}
    {step : Operation → σ → Except String Unit × σ} {callsOf : Operation → List ReplayCall}
    (hmakes : Makes target step callsOf) (ops : List Operation) (s : σ) :
    History.replay step ops s = issueAll target (dueCalls callsOf ops) s := by
  induction ops generalizing s with
  | nil => rfl
  | cons op rest ih =>
    rw [dueCalls, List.flatMap_cons, hmakes op _ s, History.replay]
    rcases step op s with ⟨reason | ⟨⟩, s'⟩
    · rfl
    · exact ih s'

theorem History.replay_revertCalls (target : ReplayTarget σ) (ops : List Operation) (s : σ) :
    replay (fun op => op.revert target) ops s =
      issueAll target (dueCalls Operation.revertCalls ops) s :=
  (makes_revert target).replay_eq_issueAll ops s

theorem History.replay_applyCalls (target : ReplayTarget σ) (ops : List Operation) (s : σ) :
    replay (fun op => op.apply target) ops s =
      issueAll target (dueCalls Operation.applyCalls ops) s :=
  (makes_apply target).replay_eq_issueAll ops s

/-- Calls fail with the reason of the target, never for want of memory. -/
theorem issueAll_error {target : ReplayTarget σ} {due : List DueCall} {s s' : σ} {e : HistoryError}
    (heq : issueAll target due s = (.error e, s')) : ∃ id reason, e = .invalidState id reason := by
  induction due generalizing s with
  | nil => cases heq
  | cons first rest ih =>
    rw [issueAll] at heq
    split at heq
    · cases heq
      exact ⟨_, _, rfl⟩
    · exact ih heq

end TextStore
