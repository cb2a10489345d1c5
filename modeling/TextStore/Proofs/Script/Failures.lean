import TextStore.Proofs.Script.Cursor

/-!
# What a failing step leaves behind

* `StepError.isRefusal` : the step failed because memory was refused;
* `Session.afterFailure` : the session as it was, except that an undo and a redo close the open
  sequence of the current buffer before they look for something to replay;
* `Session.apply_of_error` : a step that fails for any other reason than memory leaves just this
  behind, in a session that scripts have led to;
* `Script.runFrom_error` : a script that fails has made its steps up to the failing one;
* `failure_keeps_session` : so a failing script leaves behind what its accepted steps did.
-/

namespace TextStore

/-- Whether a step failed because memory was refused. -/
def StepError.isRefusal : StepError → Bool
  | buffer (.allocationFailed _) => true
  | history (.allocationFailed _) => true
  | store (.allocationFailed _) => true
  | _ => false

/-- Whether the step replays the history of the current buffer. -/
def Step.replays : Step → Bool
  | undo | redo => true
  | _ => false

/-- The buffer with the open sequence of its history closed. -/
def StoredBuffer.closed (mem : Memory) (now : Nat) (sb : StoredBuffer) : StoredBuffer :=
  { sb with history := (sb.history.closeSequence mem now).2 }

/-- All that a failing step may have done, unless it was refused memory. -/
def Session.afterFailure (mem : Memory) (s : Session) (step : Step) : Session :=
  if step.replays then
    match s.store.currentBuffer? with
    | none => s
    | some sb => { s with store := s.store.modify sb.id (·.closed mem s.now) }
  else s

/-! ## Histories -/

namespace History

variable {h h' : History} {mem : Memory} {now : Nat} {e : HistoryError}

theorem closeSequence_error (hw : h.WellFormed)
    (heq : h.closeSequence mem now = (.error e, h')) : ∃ n, e = .allocationFailed n := by
  rcases closeSequence_cases mem now hw with ⟨-, -, hrefused⟩ | ⟨h₁, hok, -, -⟩
  · rw [heq] at hrefused
    cases hrefused
    exact ⟨_, rfl⟩
  · rw [heq] at hok
    cases hok

theorem beginSequence_error (hw : h.WellFormed)
    (heq : h.beginSequence mem now = (.error e, h')) : ∃ n, e = .allocationFailed n := by
  unfold beginSequence at heq
  split at heq
  · next hclose =>
    cases heq
    exact closeSequence_error hw hclose
  · cases heq

theorem closeSequence_ok (hw : h.WellFormed) (hok : (h.closeSequence mem now).1 = .ok ()) :
    ∃ h', h.closeSequence mem now = (.ok (), h') ∧ h'.outline = h.outline.close ∧
      (h.opened = none → h' = h) := by
  rcases closeSequence_cases mem now hw with ⟨-, -, hrefused⟩ | ⟨h', heq, -, houtline⟩
  · rw [hrefused] at hok
    cases hok
  · refine ⟨h', heq, houtline, fun hnone => ?_⟩
    rw [closeSequence, hnone] at heq
    cases heq
    rfl

variable {σ : Type} {target : ReplayTarget σ} {s s' : σ}

/-- An undo that fails has closed the open sequence, unless just that was refused. -/
theorem undo_error (hw : h.WellFormed) (heq : h.undo mem now target s = (.error e, h', s')) :
    h.closeSequence mem now = (.ok (), h') ∨ ∃ n, e = .allocationFailed n := by
  unfold undo at heq
  rcases hclose : h.closeSequence mem now with ⟨cause | ⟨⟩, h₁⟩
  · rw [hclose] at heq
    cases heq
    exact .inr (closeSequence_error hw hclose)
  · left
    simp only [hclose] at heq
    split at heq
    · cases heq
      rfl
    · split at heq
      · cases heq
        rw [idle_of_closed hw hclose]
      · cases heq

theorem redo_error (hw : h.WellFormed) (heq : h.redo mem now target s = (.error e, h', s')) :
    h.closeSequence mem now = (.ok (), h') ∨ ∃ n, e = .allocationFailed n := by
  unfold redo at heq
  rcases hclose : h.closeSequence mem now with ⟨cause | ⟨⟩, h₁⟩
  · rw [hclose] at heq
    cases heq
    exact .inr (closeSequence_error hw hclose)
  · left
    simp only [hclose] at heq
    split at heq
    · cases heq
      rfl
    · split at heq
      · cases heq
        rw [idle_of_closed hw hclose]
      · cases heq

end History

/-! ## Buffers -/

section Buffers

variable {K : Transition} {sb sb' : StoredBuffer} {mem : Memory} {now : Nat}

/-- A buffer in step with its history refuses a replay at its first call, before it has changed. -/
theorem UndoResult.buffer_of_error {o o' : Outline} {T : Nat → List UInt8} {b b' : GapBuffer}
    {e : HistoryError} (hr : UndoResult o T b (.error e, o', b')) : b' = b := by
  cases hr with
  | nothing hnone => rfl
  | readOnly hg hop hro => rfl

theorem RedoResult.buffer_of_error {o o' : Outline} {T : Nat → List UInt8} {b b' : GapBuffer}
    {e : HistoryError} (hr : RedoResult o T b (.error e, o', b')) : b' = b := by
  cases hr with
  | nothing hnone => rfl
  | readOnly hg hop hro => rfl

theorem undo_of_error (hs : Retraces K sb.buffer sb.history) {e : HistoryError}
    (heq : sb.undo mem now = (.error e, sb')) :
    (sb' = sb.closed mem now ∧ (sb.history.closeSequence mem now).1 = .ok ()) ∨
      ∃ n, e = .allocationFailed n := by
  obtain ⟨limit, T, hs⟩ := hs
  unfold StoredBuffer.undo at heq
  rcases hs.undo_cases mem now with ⟨-, -, hundo⟩ | ⟨T', answer, h', b', hundo, -, hresult, -⟩
  · rw [hundo] at heq
    cases heq
    exact .inr ⟨_, rfl⟩
  · rw [hundo] at heq
    cases heq
    rcases History.undo_error hs.history hundo with hclose | hrefused
    · rw [StoredBuffer.closed, hclose, hresult.buffer_of_error]
      exact .inl ⟨rfl, rfl⟩
    · exact .inr hrefused

theorem redo_of_error (hs : Retraces K sb.buffer sb.history) {e : HistoryError}
    (heq : sb.redo mem now = (.error e, sb')) :
    (sb' = sb.closed mem now ∧ (sb.history.closeSequence mem now).1 = .ok ()) ∨
      ∃ n, e = .allocationFailed n := by
  obtain ⟨limit, T, hs⟩ := hs
  unfold StoredBuffer.redo at heq
  rcases hs.redo_cases mem now with ⟨-, -, hredo⟩ | ⟨T', answer, h', b', hredo, -, hresult, -⟩
  · rw [hredo] at heq
    cases heq
    exact .inr ⟨_, rfl⟩
  · rw [hredo] at heq
    cases heq
    rcases History.redo_error hs.history hredo with hclose | hrefused
    · rw [StoredBuffer.closed, hclose, hresult.buffer_of_error]
      exact .inl ⟨rfl, rfl⟩
    · exact .inr hrefused

theorem edit_of_error (hs : Retraces K sb.buffer sb.history) {cursor start stop : Nat}
    {text : List UInt8} {e : EditError}
    (heq : sb.edit mem now cursor start stop text = (.error e, sb')) :
    sb' = sb ∨ (StepError.ofEdit e).isRefusal = true := by
  obtain ⟨limit, T, hs⟩ := hs
  rcases sb.edit_cases mem now hs.buffer cursor start stop text with
    ⟨e', b', h', hedit, -, ⟨rfl, rfl | ⟨n, rfl⟩⟩ | ⟨edit, cause, rfl, hrecord⟩⟩ |
    ⟨-, -, edit, b', h', hedit, -⟩
  · rw [heq] at hedit
    cases hedit
    exact .inl rfl
  · rw [heq] at hedit
    cases hedit
    exact .inr rfl
  · rw [heq] at hedit
    cases hedit
    -- a record is refused for no other reason than memory
    rcases History.record_cases mem now hs.history start edit cursor (start + text.length) with
      ⟨n, h₁, hrefused, -⟩ | ⟨h₁, hok, -⟩
    · rw [hrecord] at hrefused
      cases hrefused
      exact .inr rfl
    · rw [hrecord] at hok
      cases hok
  · rw [heq] at hedit
    cases hedit

end Buffers

/-! ## Steps on the current buffer -/

/-- What a failing step leaves of the current buffer, unless it was refused memory. -/
def StoredBuffer.Spared (mem : Memory) (now : Nat) (step : Step) (sb sb' : StoredBuffer) : Prop :=
  if step.replays then sb' = sb.closed mem now ∧ (sb.history.closeSequence mem now).1 = .ok ()
  else sb' = sb

namespace Action

variable {K : Transition} {sb sb' : StoredBuffer} {mem : Memory} {now cursor : Nat} {e : StepError}

theorem edit_error (hs : Retraces K sb.buffer sb.history) {start stop : Nat} {text : String}
    (heq : Action.edit mem now cursor start stop text sb = (.error e, sb'))
    (hno : e.isRefusal = false) : sb' = sb := by
  unfold edit at heq
  rcases hanswer : sb.edit mem now cursor start stop (Utf8.encode text) with ⟨cause | there, sb₁⟩
  · rw [hanswer] at heq
    cases heq
    rcases edit_of_error hs hanswer with hsame | hrefused
    · exact hsame
    · cases hno.symm.trans hrefused
  · rw [hanswer] at heq
    cases heq

theorem onHistory_error {f : History → Except HistoryError Unit × History}
    (hf : ∀ {cause h'}, f sb.history = (.error cause, h') → ∃ n, cause = .allocationFailed n)
    (heq : Action.onHistory cursor f sb = (.error e, sb')) : e.isRefusal = true := by
  unfold onHistory at heq
  rcases hanswer : f sb.history with ⟨cause | ⟨⟩, h'⟩
  · rw [hanswer] at heq
    cases heq
    obtain ⟨n, rfl⟩ := hf hanswer
    rfl
  · rw [hanswer] at heq
    cases heq

theorem replay_error {f : StoredBuffer → Except HistoryError Nat × StoredBuffer} {P : Prop}
    (hf : ∀ {cause}, f sb = (.error cause, sb') → P ∨ ∃ n, cause = .allocationFailed n)
    (heq : Action.replay f sb = (.error e, sb')) (hno : e.isRefusal = false) : P := by
  unfold replay at heq
  rcases hanswer : f sb with ⟨cause | there, sb₁⟩
  · rw [hanswer] at heq
    cases heq
    rcases hf hanswer with hP | ⟨n, rfl⟩
    · exact hP
    · cases hno
  · rw [hanswer] at heq
    cases heq

theorem spared (hs : Retraces K sb.buffer sb.history) {step : Step} {f : Action}
    (hf : step.action? mem now cursor = some f) (heq : f sb = (.error e, sb'))
    (hno : e.isRefusal = false) : sb.Spared mem now step sb' := by
  have hw : sb.history.WellFormed := by
    obtain ⟨limit, T, hs⟩ := hs
    exact hs.history
  cases step with
  | insert pos text => cases hf; exact edit_error hs heq hno
  | erase start stop => cases hf; exact edit_error hs heq hno
  | replace start stop text => cases hf; exact edit_error hs heq hno
  | beginSequence =>
    cases hf
    cases hno.symm.trans (onHistory_error (History.beginSequence_error hw) heq)
  | endSequence =>
    cases hf
    cases hno.symm.trans (onHistory_error (History.closeSequence_error hw) heq)
  | undo => cases hf; exact replay_error (undo_of_error hs) heq hno
  | redo => cases hf; exact replay_error (redo_of_error hs) heq hno
  | readOnly enabled => cases hf; cases heq
  | _ => cases hf

end Action

/-! ## Steps of a session -/

namespace Session

variable {s s' : Session} {mem : Memory} {step : Step} {sb : StoredBuffer}

/-- What a failing step leaves of `s`, unless it was refused memory. -/
structure Spares (mem : Memory) (s : Session) (step : Step) (s' : Session) : Prop where
  session : s' = s.afterFailure mem step
  /-- A sequence that was open is committed if it has operations, and dropped if not. -/
  closed : step.replays = true → ∀ sb, s.store.currentBuffer? = some sb →
    ∃ h', sb.history.closeSequence mem s.now = (.ok (), h') ∧
      h'.outline = sb.history.outline.close ∧ (sb.history.opened = none → h' = sb.history)

theorem Spares.unchanged (hreplays : step.replays = false) : s.Spares mem step s where
  session := by rw [afterFailure, hreplays]; rfl
  closed htrue := by cases hreplays.symm.trans htrue

/-- Putting a buffer in the place of the current one touches no other buffer. -/
theorem put_eq (hc : s.store.Consistent) (hsb : s.store.currentBuffer? = some sb)
    {sb' : StoredBuffer} {f : StoredBuffer → StoredBuffer} (hf : sb.adopt sb' = f sb) :
    s.put sb.id sb' = { s with store := s.store.modify sb.id f } := by
  obtain ⟨pre, post, hsplit⟩ := List.append_of_mem (Store.mem_of_currentBuffer? hsb)
  rw [put, hc.modify_eq hsplit, hc.modify_eq hsplit, hf]

theorem put_self (hc : s.store.Consistent) (hsb : s.store.currentBuffer? = some sb) :
    s.put sb.id sb = s := by
  rw [put_eq hc hsb (f := id) rfl]
  simp [Store.modify]

theorem Spares.of_spared (hs : s.Steady) (hsb : s.store.currentBuffer? = some sb)
    {sb' : StoredBuffer} (hspared : sb.Spared mem s.now step sb') :
    s.Spares mem step (s.put sb.id sb') := by
  unfold StoredBuffer.Spared at hspared
  cases hreplays : step.replays with
  | false =>
    rw [hreplays] at hspared
    obtain rfl : sb' = sb := hspared
    rw [put_self hs.store hsb]
    exact .unchanged hreplays
  | true =>
    rw [hreplays] at hspared
    obtain ⟨rfl, hok⟩ := hspared
    obtain ⟨limit, T, hin⟩ := (hs.current hsb).1
    refine ⟨?_, fun _ sb₁ hsb₁ => ?_⟩
    · rw [afterFailure, hreplays, if_pos rfl, hsb]
      exact put_eq hs.store hsb rfl
    · obtain rfl : sb = sb₁ := Option.some.inj (hsb.symm.trans hsb₁)
      exact History.closeSequence_ok hin.history hok

theorem apply_of_error (hs : s.Steady) {e : StepError} (heq : s.apply mem step = (.error e, s'))
    (hno : e.isRefusal = false) : s.Spares mem step s' := by
  cases hf : step.action? mem s.now s.cursor with
  | none =>
    have hperform : s.perform mem step = (.error e, s') := by
      unfold apply at heq
      split at heq
      · next hfail =>
        cases heq
        exact hfail
      · cases heq
    have hsame := perform_of_error hf (congrArg Prod.fst hperform)
    rw [hperform] at hsame
    obtain rfl : s' = s := hsame
    refine .unchanged ?_
    cases step with
    | undo => cases hf
    | redo => cases hf
    | _ => rfl
  | some f =>
    rw [apply_of_action? hf] at heq
    cases hsb : s.store.currentBuffer? with
    | none =>
      rw [moving_of_none hsb] at heq
      cases heq
      refine ⟨?_, fun _ sb hsome => ?_⟩
      · rw [afterFailure, hsb]
        exact (ite_self s).symm
      · cases hsb.symm.trans hsome
    | some sb =>
      rw [moving_of_some hsb] at heq
      rcases hanswer : f sb with ⟨cause | there, sb'⟩
      · rw [hanswer] at heq
        cases heq
        exact .of_spared hs hsb (Action.spared (hs.current hsb).1 hf hanswer hno)
      · rw [hanswer] at heq
        cases heq

end Session

/-! ## Scripts -/

/-- The steps before the failing one were accepted. -/
theorem Script.runFrom_error {mem : Memory} {number : Nat} {steps : List Step} {s s' : Session}
    {f : Failure} (heq : runFrom mem number steps s = (.error f, s')) :
    ∃ count s₁, f.number = number + count ∧ steps[count]? = some f.step ∧
      runFrom mem number (steps.take count) s = (.ok (), s₁) ∧
      s₁.apply mem f.step = (.error f.cause, s') := by
  induction steps generalizing number s with
  | nil => cases heq
  | cons step rest ih =>
    unfold runFrom at heq
    rcases hstep : s.apply mem step with ⟨cause | ⟨⟩, s₂⟩
    · rw [hstep] at heq
      cases heq
      exact ⟨0, s, rfl, rfl, rfl, hstep⟩
    · rw [hstep] at heq
      obtain ⟨count, s₁, hnumber, hget, hbefore, hfails⟩ := ih heq
      refine ⟨count + 1, s₁, by omega, hget, ?_, hfails⟩
      rw [List.take_succ_cons, runFrom, hstep]
      exact hbefore

/-- What a failing script leaves behind: the session after the steps before the failing one. -/
structure Script.Spares (mem : Memory) (script : Script) (s : Session) (f : Failure)
    (s' : Session) : Prop where
  number_pos : 1 ≤ f.number
  step : script.steps[f.number - 1]? = some f.step
  before : ∃ summary s₁, Script.run mem { steps := script.steps.take (f.number - 1) } s =
    (.ok summary, s₁) ∧ s₁.apply mem f.step = (.error f.cause, s') ∧ s₁.Spares mem f.step s'

theorem Script.run_error {mem : Memory} {script : Script} {s s' : Session} {f : Failure}
    (hs : s.Steady) (heq : script.run mem s = (.error f, s')) (hno : f.cause.isRefusal = false) :
    script.Spares mem s f s' := by
  unfold run at heq
  split at heq
  · next hrun =>
    cases heq
    obtain ⟨count, s₁, hnumber, hget, hbefore, hfails⟩ := runFrom_error hrun
    have hs₁ := Session.steady_invariant.runFrom (Session.steady_invariant.start hs) mem 1
      (script.steps.take count)
    rw [hbefore] at hs₁
    obtain rfl : count = f.number - 1 := by omega
    refine ⟨by omega, hget,
      { steps := (script.steps.take (f.number - 1)).length, cursor := s₁.cursor }, s₁, ?_, hfails,
      Session.apply_of_error hs₁ hfails hno⟩
    rw [run, hbefore]
  · cases heq

/-- Whatever scripts were run on a new store and whatever steps the present one has made: a step
that fails, and not because memory was refused, leaves the session as it was, except that an undo or
a redo has closed the open sequence of the current buffer. A script that fails leaves the session
behind as its steps before the failing one have, up to that. -/
theorem failure_keeps_session (settings : Settings) (now : Nat) (runs : List (Memory × Script))
    (mem : Memory) (steps : List Step) (answer : Except Failure Unit) (s : Session)
    (hsteps : Script.runFrom mem 1 steps
      { Script.runAll runs { store := { settings }, now } with cursor := 0 } = (answer, s)) :
    (∀ mem' step e s', s.apply mem' step = (.error e, s') → e.isRefusal = false →
      s.Spares mem' step s') ∧
    ∀ mem' (script : Script) f s', script.run mem' s = (.error f, s') →
      f.cause.isRefusal = false → script.Spares mem' s f s' := by
  have hstart := Session.steady_invariant.runAll (Session.steady_new settings now) runs
  have hs := Session.steady_invariant.runFrom (Session.steady_invariant.start hstart) mem 1 steps
  rw [hsteps] at hs
  refine ⟨?_, ?_⟩
  · intro mem' step e s' heq hno
    exact Session.apply_of_error hs heq hno
  · intro mem' script f s' heq hno
    exact Script.run_error hs heq hno

/-- A buffer that becomes read-only while a sequence with an operation is open. -/
def lockedSteps : List Step := [.create "a", .insert 0 "x", .readOnly true]

theorem failure_keeps_session_locked : ∃ s,
    Script.runFrom .host 1 lockedSteps smallStart = (.ok (), s) ∧
      (∃ e s', s.apply .host .undo = (.error e, s') ∧ s.Spares .host .undo s' ∧ s' ≠ s) ∧
      ∃ f s', Script.run .host { steps := [.pause 1, .insert 0 "y"] } s = (.error f, s') ∧
        Script.Spares .host { steps := [.pause 1, .insert 0 "y"] } s f s' := by
  have hok : (Script.runFrom .host 1 lockedSteps smallStart).1.isOk = true := by decide +kernel
  have hundo : ∃ e, ((Script.runFrom .host 1 lockedSteps smallStart).2.apply .host .undo).1 =
      .error (.history (.invalidState 1 e)) := ⟨BufferError.readOnly.message, by decide +kernel⟩
  have hother : ((Script.runFrom .host 1 lockedSteps smallStart).2.apply .host .undo).2 ≠
      (Script.runFrom .host 1 lockedSteps smallStart).2 := by decide +kernel
  have hinsert : (Script.run .host { steps := [.pause 1, .insert 0 "y"] }
      (Script.runFrom .host 1 lockedSteps smallStart).2).1 =
      .error { number := 2, step := .insert 0 "y", cause := .buffer .readOnly } := by decide +kernel
  rcases hsteps : Script.runFrom .host 1 lockedSteps smallStart with ⟨e | ⟨⟩, s⟩
  · rw [hsteps] at hok
    cases hok
  · rw [hsteps] at hundo hother hinsert
    obtain ⟨e, hundo⟩ := hundo
    obtain ⟨hstep, hscript⟩ :=
      failure_keeps_session { initialCapacity := 4 } 0 [] .host lockedSteps _ s hsteps
    refine ⟨s, rfl, ⟨_, _, Prod.ext hundo rfl, hstep _ _ _ _ (Prod.ext hundo rfl) rfl, hother⟩,
      _, _, Prod.ext hinsert rfl, hscript _ _ _ _ (Prod.ext hinsert rfl) rfl⟩

end TextStore
