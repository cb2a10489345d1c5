import TextStore.Proofs.History.Numbering

/-!
# The calls that a replay makes

A target answers calls in whatever way it likes, so a replay is told by the calls it makes of those
that are due and the answers it gets.

* `ReplayTarget.logged` : the target with a log of every call and its answer. It answers as the target
  itself does;
* `Issued` : all calls are accepted, or the log ends with the first one that is refused;
* `Direction`, `Concludes` : an undo and a redo, which take the operations in opposite orders and
  move the boundary in opposite directions;
* `run_replays_calls` : what a replay calls, answers and leaves behind, after every run.
-/

namespace TextStore

variable {σ : Type}

/-! ## A log of the calls -/

/-- A call and what the target answered. -/
structure AnsweredCall where
  call : ReplayCall
  answer : Except String Unit

/-- Makes a call and writes it down with its answer. -/
def ReplayCall.note (target : ReplayTarget σ) (call : ReplayCall) :
    σ × List AnsweredCall → Except String Unit × σ × List AnsweredCall
  | (s, log) =>
    match call.issue target s with
    | (answer, s') => (answer, s', log ++ [⟨call, answer⟩])

/-- The target, with a log of the calls made on it. -/
def ReplayTarget.logged (target : ReplayTarget σ) : ReplayTarget (σ × List AnsweredCall) where
  insertAt pos text := (ReplayCall.insertAt pos text).note target
  deleteSpan start stop := (ReplayCall.deleteSpan start stop).note target

theorem ReplayCall.issue_logged (target : ReplayTarget σ) (call : ReplayCall) :
    call.issue target.logged = call.note target := by
  cases call <;> rfl

/-- The log of calls that are all accepted. -/
def accepted (due : List DueCall) : List AnsweredCall := due.map fun d => ⟨d.call, .ok ()⟩

/-- The target accepts each of the calls in turn, and they lead from `s` to `s'`. -/
def Accepts (target : ReplayTarget σ) : List DueCall → σ → σ → Prop
  | [], s, s' => s = s'
  | due :: rest, s, s' => ∃ mid, due.call.issue target s = (.ok (), mid) ∧ Accepts target rest mid s'

/-- Calls made on `target` in the state `s`, with the answer, the state and the log they lead to. -/
inductive Issued (target : ReplayTarget σ) (due : List DueCall) (s : σ) :
    Except HistoryError Unit → σ → List AnsweredCall → Prop
  | whole {s' : σ} (haccepts : Accepts target due s s') :
    Issued target due s (.ok ()) s' (accepted due)
  | cut {before after : List DueCall} {refused : DueCall} {mid s' : σ} {reason : String}
    (hdue : due = before ++ refused :: after) (haccepts : Accepts target before s mid)
    (hrefused : refused.call.issue target mid = (.error reason, s')) :
    Issued target due s (.error (.invalidState refused.operation reason)) s'
      (accepted before ++ [⟨refused.call, .error reason⟩])

theorem Issued.cons {target : ReplayTarget σ} {due : DueCall} {rest : List DueCall} {s mid s' : σ}
    {answer : Except HistoryError Unit} {log : List AnsweredCall}
    (hdue : due.call.issue target s = (.ok (), mid)) (hrest : Issued target rest mid answer s' log) :
    Issued target (due :: rest) s answer s' (⟨due.call, .ok ()⟩ :: log) := by
  cases hrest with
  | whole haccepts => exact .whole ⟨mid, hdue, haccepts⟩
  | @cut before after refused _ _ _ hsplit haccepts hrefused =>
    have hcons : due :: rest = (due :: before) ++ refused :: after := by
      rw [hsplit, List.cons_append]
    exact .cut hcons ⟨mid, hdue, haccepts⟩ hrefused

/-- Made on the target with a log, calls are answered as by the target itself, and the log tells
them up to the first that is refused. -/
theorem issueAll_logged (target : ReplayTarget σ) (due : List DueCall) (s : σ)
    (log : List AnsweredCall) :
    ∃ answer s' new, issueAll target.logged due (s, log) = (answer, s', log ++ new) ∧
      issueAll target due s = (answer, s') ∧ Issued target due s answer s' new := by
  induction due generalizing s log with
  | nil => exact ⟨.ok (), s, [], by rw [List.append_nil]; rfl, rfl, .whole rfl⟩
  | cons first rest ih =>
    simp only [issueAll, ReplayCall.issue_logged, ReplayCall.note]
    rcases hfirst : first.call.issue target s with ⟨reason | ⟨⟩, mid⟩
    · have hnil : first :: rest = [] ++ first :: rest := rfl
      exact ⟨_, mid, _, rfl, rfl, .cut hnil rfl hfirst⟩
    · obtain ⟨answer, s', new, hlogged, hplain, hissued⟩ :=
        ih mid (log ++ [⟨first.call, .ok ()⟩])
      refine ⟨answer, s', _, hlogged.trans ?_, hplain, .cons hfirst hissued⟩
      rw [List.append_assoc]
      rfl

/-! ## Prefixes -/

theorem Accepts.of_append {target : ReplayTarget σ} {before after : List DueCall} {s mid s' : σ}
    (hbefore : Accepts target before s mid) (h : Accepts target (before ++ after) s s') :
    Accepts target after mid s' := by
  induction before generalizing s with
  | nil =>
    obtain rfl : s = mid := hbefore
    exact h
  | cons due rest ih =>
    obtain ⟨t, hdue, hrest⟩ := hbefore
    obtain ⟨t', hdue', hrest'⟩ := h
    rw [hdue] at hdue'
    cases hdue'
    exact ih hrest hrest'

namespace Issued

variable {target : ReplayTarget σ} {due : List DueCall} {s s' : σ}
  {answer : Except HistoryError Unit} {log : List AnsweredCall}

/-- The calls made are the first ones of those that are due. -/
theorem isPrefix (h : Issued target due s answer s' log) :
    log.map AnsweredCall.call <+: due.map DueCall.call := by
  have hcalls (due : List DueCall) :
      (accepted due).map AnsweredCall.call = due.map DueCall.call := by
    rw [accepted, List.map_map]
    rfl
  cases h with
  | whole haccepts => exact (hcalls due).symm ▸ List.prefix_refl _
  | @cut before after refused _ _ _ hdue haccepts hrefused =>
    refine ⟨after.map DueCall.call, ?_⟩
    rw [List.map_append, hcalls, hdue, List.map_append, List.map_cons, List.append_assoc]
    rfl

theorem whole_iff (h : Issued target due s answer s' log) :
    log = accepted due ↔ ∃ t, Accepts target due s t := by
  cases h with
  | whole haccepts => exact ⟨fun _ => ⟨s', haccepts⟩, fun _ => rfl⟩
  | @cut before after refused mid _ reason hdue haccepts hrefused =>
    constructor
    · intro hlog
      have hmem : (⟨refused.call, .error reason⟩ : AnsweredCall) ∈ accepted due :=
        hlog ▸ List.mem_append_right _ List.mem_cons_self
      obtain ⟨d, -, hd⟩ := List.mem_map.1 hmem
      cases congrArg AnsweredCall.answer hd
    · rintro ⟨t, ht⟩
      rw [hdue] at ht
      obtain ⟨mid', hrefused', -⟩ := haccepts.of_append ht
      rw [hrefused] at hrefused'
      cases hrefused'

end Issued

/-! ## Undo and redo -/

/-- Which way a replay goes through the history. -/
inductive Direction where
  | back
  | on
  deriving DecidableEq, Repr

namespace Direction

def replay (mem : Memory) (now : Nat) (target : ReplayTarget σ) (h : History) (s : σ) :
    Direction → Except HistoryError Nat × History × σ
  | back => h.undo mem now target s
  | on => h.redo mem now target s

/-- The sequence that is next. -/
def sequence? (h : History) : Direction → Option Sequence
  | back => h.currentSequence?
  | on => h.nextSequence?

/-- The calls due for the operations of a sequence: the last operation is taken back first, and the
first one made again first. -/
def due (ops : List Operation) : Direction → List DueCall
  | back => dueCalls Operation.revertCalls ops.reverse
  | on => dueCalls Operation.applyCalls ops

/-- The cursor to restore. -/
def cursor? (ops : List Operation) : Direction → Option Nat
  | back => ops.head?.map Operation.cursorBefore
  | on => ops.getLast?.map Operation.cursorAfter

/-- The boundary moves over one sequence. -/
def Moves (applied applied' : Nat) : Direction → Prop
  | back => applied = applied' + 1
  | on => applied' = applied + 1

end Direction

/-- How a replay of the operations `ops` on the closed history `h` ends, given how its calls ended:
with the cursor to restore and the boundary moved, or with the error and the history as it is. -/
inductive Concludes (d : Direction) (h : History) (ops : List Operation) :
    Except HistoryError Unit → Except HistoryError Nat → History → Prop
  | moved {cursor applied : Nat} (hcursor : d.cursor? ops = some cursor)
    (hmoves : d.Moves h.applied applied) :
    Concludes d h ops (.ok ()) (.ok cursor) { h with applied }
  | stayed (e : HistoryError) : Concludes d h ops (.error e) (.error e) h

theorem Concludes.unique {d : Direction} {h h₁ h₂ : History} {ops : List Operation}
    {outcome : Except HistoryError Unit} {answer₁ answer₂ : Except HistoryError Nat}
    (hc₁ : Concludes d h ops outcome answer₁ h₁) (hc₂ : Concludes d h ops outcome answer₂ h₂) :
    answer₁ = answer₂ ∧ h₁ = h₂ := by
  cases hc₁ with
  | stayed e =>
    cases hc₂
    exact ⟨rfl, rfl⟩
  | @moved cursor₁ applied₁ hcursor₁ hmoves₁ =>
    obtain @⟨cursor₂, applied₂, hcursor₂, hmoves₂⟩ | _ := hc₂
    have hcursor : cursor₁ = cursor₂ := Option.some.inj (hcursor₁.symm.trans hcursor₂)
    have happlied : applied₁ = applied₂ := by
      cases d <;> simp only [Direction.Moves] at hmoves₁ hmoves₂ <;> omega
    exact ⟨by rw [hcursor], by rw [happlied]⟩

namespace History

variable {h h₁ : History} {mem : Memory} {now : Nat} {seq : Sequence}

theorem replay_concludes (hw : h.WellFormed) (d : Direction) (target : ReplayTarget σ) {s s' : σ}
    {outcome : Except HistoryError Unit} (hclose : h.closeSequence mem now = (.ok (), h₁))
    (hseq : d.sequence? h₁ = some seq)
    (hcalls : issueAll target (d.due (h₁.operationsOf seq)) s = (outcome, s')) :
    ∃ answer h', d.replay mem now target h s = (answer, h', s') ∧
      Concludes d h₁ (h₁.operationsOf seq) outcome answer h' := by
  have hw₁ := wellFormed_closeSequence mem now hw
  have hidle := idle_of_closed hw hclose
  rw [hclose] at hw₁
  cases d with
  | back =>
    have hcurrent : h₁.currentSequence? = some seq := hseq
    have hmem : seq ∈ h₁.sequences ∧ h₁.applied = h₁.applied - 1 + 1 := by
      rw [currentSequence?] at hcurrent
      split at hcurrent
      · cases hcurrent
      · exact ⟨List.mem_of_getElem? hcurrent, by omega⟩
    obtain ⟨first, -, -, -, hhead, -⟩ := ends_operationsOf hw₁ hmem.1
    have hreplay := replay_revertCalls target (h₁.operationsOf seq).reverse s
    rw [show dueCalls _ _ = Direction.back.due (h₁.operationsOf seq) from rfl, hcalls] at hreplay
    simp only [Direction.replay, undo, hclose, hcurrent, hreplay, hhead]
    rcases outcome with e | ⟨⟩
    · exact ⟨_, _, rfl, hidle.symm ▸ .stayed e⟩
    · refine ⟨_, _, rfl, ?_⟩
      rw [show ({ h₁ with phase := .idle, applied := h₁.applied - 1 } : History) =
        { ({ h₁ with phase := .idle } : History) with applied := h₁.applied - 1 } from rfl, hidle]
      exact .moved (by rw [Direction.cursor?, hhead]; rfl) hmem.2
  | on =>
    have hnext : h₁.nextSequence? = some seq := hseq
    obtain ⟨-, last, -, -, -, hlast⟩ := ends_operationsOf hw₁ (List.mem_of_getElem? hnext)
    have hreplay := replay_applyCalls target (h₁.operationsOf seq) s
    rw [show dueCalls _ _ = Direction.on.due (h₁.operationsOf seq) from rfl, hcalls] at hreplay
    simp only [Direction.replay, redo, hclose, hnext, hreplay, hlast]
    rcases outcome with e | ⟨⟩
    · exact ⟨_, _, rfl, hidle.symm ▸ .stayed e⟩
    · refine ⟨_, _, rfl, ?_⟩
      rw [show ({ h₁ with phase := .idle, applied := h₁.applied + 1 } : History) =
        { ({ h₁ with phase := .idle } : History) with applied := h₁.applied + 1 } from rfl, hidle]
      exact .moved (by rw [Direction.cursor?, hlast]; rfl) rfl

/-- After every run, and on every target: once the open sequence is closed, a replay makes the calls
due for the operations of the next sequence up to the first one that is refused. All of them are
made and accepted just when the target accepts them one after the other; then the answer is the
cursor to restore and the boundary moves over this sequence. Otherwise the last call made is the
refused one, which may be the last one due; the error names its operation and the target's reason,
and the history is as closing left it. -/
theorem run_replays_calls (settings : HistorySettings) (steps : List HistoryStep) (d : Direction)
    (mem : Memory) (now : Nat) (target : ReplayTarget σ) (s : σ)
    (hclose : (run { settings } steps).closeSequence mem now = (.ok (), h₁))
    (hseq : d.sequence? h₁ = some seq) :
    ∃ outcome answer h' s' log,
      d.replay mem now target.logged (run { settings } steps) (s, []) = (answer, h', s', log) ∧
      d.replay mem now target (run { settings } steps) s = (answer, h', s') ∧
      Issued target (d.due (h₁.operationsOf seq)) s outcome s' log ∧
      Concludes d h₁ (h₁.operationsOf seq) outcome answer h' ∧
      log.map AnsweredCall.call <+: (d.due (h₁.operationsOf seq)).map DueCall.call ∧
      (log = accepted (d.due (h₁.operationsOf seq)) ↔
        ∃ t, Accepts target (d.due (h₁.operationsOf seq)) s t) := by
  have hw := (precedes_run (wellFormed_new settings) steps).wellFormed
  obtain ⟨outcome, s', log, hlogged, hplain, hissued⟩ :=
    issueAll_logged target (d.due (h₁.operationsOf seq)) s []
  rw [List.nil_append] at hlogged
  obtain ⟨answer, h', hreplay, hconcludes⟩ := replay_concludes hw d target hclose hseq hplain
  obtain ⟨answer', h'', hreplay', hconcludes'⟩ :=
    replay_concludes hw d target.logged hclose hseq hlogged
  obtain ⟨rfl, rfl⟩ := hconcludes.unique hconcludes'
  exact ⟨outcome, answer, h', s', log, hreplay', hreplay, hissued, hconcludes, hissued.isPrefix,
    hissued.whole_iff⟩

/-- An insertion and a replacement in one sequence. -/
def replacingSteps : List HistoryStep :=
  [.record .ample 0 0 (.insert [97]) 0 1, .record .ample 0 0 (.replace [97] [98, 99]) 1 2]

/-- The target refuses the second call that takes the replacement back. -/
theorem run_replays_calls_replacing :
    ∃ answer h' s' log,
      Direction.back.replay .ample 1 CallLog.replayTarget.logged
        (run { settings := {} } replacingSteps) ({ failAt := some 1 }, []) = (answer, h', s', log) ∧
      answer = .error (.invalidState 2 "refused") ∧
      log.map AnsweredCall.call = [.deleteSpan 0 2, .insertAt 0 [97]] ∧
      h' = ((run { settings := {} } replacingSteps).closeSequence .ample 1).2 ∧
      ¬∃ t, Accepts CallLog.replayTarget
        [⟨2, .deleteSpan 0 2⟩, ⟨2, .insertAt 0 [97]⟩, ⟨1, .deleteSpan 0 1⟩] { failAt := some 1 } t := by
  obtain ⟨outcome, answer, h', s', log, hlogged, -, -, -, -, hwhole⟩ :=
    run_replays_calls {} replacingSteps .back .ample 1 CallLog.replayTarget { failAt := some 1 }
      rfl rfl
  have hanswer : answer = .error (.invalidState 2 "refused") := (congrArg Prod.fst hlogged).symm
  have hlog : log = [⟨.deleteSpan 0 2, .ok ()⟩, ⟨.insertAt 0 [97], .error "refused"⟩] :=
    (congrArg (·.2.2.2) hlogged).symm
  refine ⟨answer, h', s', log, hlogged, hanswer, by rw [hlog]; rfl,
    (congrArg (·.2.1) hlogged).symm, fun haccepts => ?_⟩
  have hall := hlog.symm.trans (hwhole.2 haccepts)
  cases hall

end History

end TextStore
