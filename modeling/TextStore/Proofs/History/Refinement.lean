import TextStore.Proofs.History.Outline

/-!
# Runs of a history and of its outline

* `HistoryStep` : an operation of a history with its arguments, the time it is called at and, for a
  replay, the target; `perform` is what it does to a history, and `act` what it does to an outline;
* `History.Follows` : a history that is read, and that answers and acts, as an outline says;
* `run_follows_outline` : so it is after every run of operations that is not refused memory.
-/

namespace TextStore

/-- An operation of a history. The clock is read by each of them, and each finds its own memory. -/
inductive HistoryStep : Type 1 where
  | beginSequence (mem : Memory) (now : Nat)
  | closeSequence (mem : Memory) (now : Nat)
  /-- Records an edit of any of the three kinds. -/
  | record (mem : Memory) (now position : Nat) (edit : Edit) (cursorBefore cursorAfter : Nat)
  | undo (mem : Memory) (now : Nat) {σ : Type} (target : ReplayTarget σ) (s : σ)
  | redo (mem : Memory) (now : Nat) {σ : Type} (target : ReplayTarget σ) (s : σ)
  | clear
  | setEnabled (on : Bool)

namespace HistoryStep

/-- What a step answers; a replay answers with the target's state as well. -/
def Outcome : HistoryStep → Type
  | beginSequence .. | closeSequence .. | record .. => Except HistoryError Unit
  | @undo _ _ σ _ _ | @redo _ _ σ _ _ => Except HistoryError Nat × σ
  | clear | setEnabled _ => Unit

def perform (h : History) : (step : HistoryStep) → step.Outcome × History
  | beginSequence mem now => h.beginSequence mem now
  | closeSequence mem now => h.closeSequence mem now
  | record mem now position edit cursorBefore cursorAfter =>
    h.record mem now position edit cursorBefore cursorAfter
  | undo mem now target s =>
    match h.undo mem now target s with
    | (answer, h', s') => ((answer, s'), h')
  | redo mem now target s =>
    match h.redo mem now target s with
    | (answer, h', s') => ((answer, s'), h')
  | clear => ((), h.clear)
  | setEnabled on => ((), h.setEnabled on)

def act (o : Outline) : (step : HistoryStep) → step.Outcome × Outline
  | beginSequence _ now => (.ok (), o.close.start now)
  | closeSequence _ _ => (.ok (), o.close)
  | record _ now position edit cursorBefore cursorAfter =>
    (.ok (), o.record now position edit cursorBefore cursorAfter)
  | undo _ _ target s =>
    match o.undo target s with
    | (answer, o', s') => ((answer, s'), o')
  | redo _ _ target s =>
    match o.redo target s with
    | (answer, o', s') => ((answer, s'), o')
  | clear => ((), o.clear)
  | setEnabled on => ((), { o with enabled := on })

/-- Whether an answer reports that memory was refused. -/
def isRefusal {α : Type} : Except HistoryError α → Bool
  | .error (.allocationFailed _) => true
  | _ => false

/-- Whether the step was refused memory. -/
def refused : (step : HistoryStep) → step.Outcome → Bool
  | beginSequence .., answer | closeSequence .., answer | record .., answer => isRefusal answer
  | undo .., outcome | redo .., outcome => isRefusal outcome.1
  | clear, _ | setEnabled _, _ => false

/-- The memory of the step grants everything that a history asks for. -/
def Granted : HistoryStep → Prop
  | beginSequence mem _ | closeSequence mem _ | undo mem _ _ _ | redo mem _ _ _ =>
    ∀ n, mem.commit n = true
  | record mem .. => (∀ n, mem.commit n = true) ∧ (∀ n, mem.recorded n = true) ∧ mem.entry = true
  | clear | setEnabled _ => True

end HistoryStep

namespace History

variable {h : History}

/-! ## One step -/

/-- The step does to `h` what it does to the outline of `h`. -/
structure Agrees (h : History) (step : HistoryStep) : Prop where
  outcome : (step.perform h).1 = (step.act h.outline).1
  outline : (step.perform h).2.outline = (step.act h.outline).2
  wellFormed : (step.perform h).2.WellFormed

/-- The step is refused memory that it asked for. -/
structure Refuses (h : History) (step : HistoryStep) : Prop where
  refused : step.refused (step.perform h).1 = true
  granted : ¬ step.Granted

theorem Agrees.of_eq {step : HistoryStep} {outcome : step.Outcome} {h' : History}
    (hperform : step.perform h = (outcome, h')) (hact : step.act h.outline = (outcome, h'.outline))
    (hw : h'.WellFormed) : h.Agrees step := by
  refine ⟨?_, ?_, ?_⟩
  · rw [hperform, hact]
  · rw [hperform, hact]
  · rw [hperform]
    exact hw

theorem Refuses.of_eq {step : HistoryStep} {outcome : step.Outcome} {h' : History}
    (hperform : step.perform h = (outcome, h')) (hrefused : step.refused outcome = true)
    (hgranted : ¬ step.Granted) : h.Refuses step :=
  ⟨by rw [hperform]; exact hrefused, hgranted⟩

/-- Every step agrees with the outline or is refused memory. -/
theorem agrees_or_refuses (hw : h.WellFormed) (step : HistoryStep) :
    h.Agrees step ∨ h.Refuses step := by
  cases step with
  | beginSequence mem now =>
    rcases beginSequence_cases mem now hw with ⟨-, hmem, heq⟩ | ⟨h', heq, hw', houtline⟩
    · exact .inr (.of_eq heq rfl fun hgranted => by simp [hgranted _] at hmem)
    · exact .inl (.of_eq heq (Prod.ext rfl houtline.symm) hw')
  | closeSequence mem now =>
    rcases closeSequence_cases mem now hw with ⟨-, hmem, heq⟩ | ⟨h', heq, hw', houtline⟩
    · exact .inr (.of_eq heq rfl fun hgranted => by simp [hgranted _] at hmem)
    · exact .inl (.of_eq heq (Prod.ext rfl houtline.symm) hw')
  | record mem now position edit cursorBefore cursorAfter =>
    rcases record_cases mem now hw position edit cursorBefore cursorAfter with
      ⟨n, h', heq, -, -, hmem⟩ | ⟨h', heq, hw', houtline⟩
    · exact .inr (.of_eq heq rfl fun hgranted => hmem ⟨hgranted.1 _, hgranted.2⟩)
    · exact .inl (.of_eq heq (Prod.ext rfl houtline.symm) hw')
  | undo mem now target s =>
    rcases outline_undo mem now hw target s with ⟨-, hmem, heq⟩ | ⟨answer, h', s', heq, hw', hact⟩
    · refine .inr ⟨?_, fun hgranted => by simp [hgranted _] at hmem⟩
      simp only [HistoryStep.perform, heq]
      rfl
    · refine .inl ⟨?_, ?_, ?_⟩
      · simp only [HistoryStep.perform, heq, HistoryStep.act, hact]
        rfl
      · simp only [HistoryStep.perform, heq, HistoryStep.act, hact]
      · simp only [HistoryStep.perform, heq]
        exact hw'
  | redo mem now target s =>
    rcases outline_redo mem now hw target s with ⟨-, hmem, heq⟩ | ⟨answer, h', s', heq, hw', hact⟩
    · refine .inr ⟨?_, fun hgranted => by simp [hgranted _] at hmem⟩
      simp only [HistoryStep.perform, heq]
      rfl
    · refine .inl ⟨?_, ?_, ?_⟩
      · simp only [HistoryStep.perform, heq, HistoryStep.act, hact]
        rfl
      · simp only [HistoryStep.perform, heq, HistoryStep.act, hact]
      · simp only [HistoryStep.perform, heq]
        exact hw'
  | clear => exact .inl ⟨rfl, rfl, wellFormed_clear h⟩
  | setEnabled on => exact .inl ⟨rfl, rfl, ⟨hw.applied_le, hw.tiled, hw.heldBytes, hw.phase⟩⟩

/-- What a step leaves of `h` that makes `o` of its outline. When the step is refused memory, the
outline is as before, or at most a group was opened. -/
inductive Leaves (h : History) (o : Outline) : History → Prop
  | made {h' : History} (hw : h'.WellFormed) (houtline : h'.outline = o) : Leaves h o h'
  | same {h' : History} (hw : h'.WellFormed) (houtline : h'.outline = h.outline) : Leaves h o h'
  | opened {h' : History} (hw : h'.WellFormed) (now : Nat)
      (houtline : h'.outline = h.outline.ensureOpen now) : Leaves h o h'

theorem leaves_perform (hw : h.WellFormed) (step : HistoryStep) :
    h.Leaves (step.act h.outline).2 (step.perform h).2 := by
  cases step with
  | beginSequence mem now =>
    show h.Leaves _ (h.beginSequence mem now).2
    rcases beginSequence_cases mem now hw with ⟨-, -, heq⟩ | ⟨h', heq, hw', houtline⟩
    · rw [heq]
      exact .same hw rfl
    · rw [heq]
      exact .made hw' houtline
  | closeSequence mem now =>
    show h.Leaves _ (h.closeSequence mem now).2
    rcases closeSequence_cases mem now hw with ⟨-, -, heq⟩ | ⟨h', heq, hw', houtline⟩
    · rw [heq]
      exact .same hw rfl
    · rw [heq]
      exact .made hw' houtline
  | record mem now position edit cursorBefore cursorAfter =>
    show h.Leaves _ (h.record mem now position edit cursorBefore cursorAfter).2
    rcases record_cases mem now hw position edit cursorBefore cursorAfter with
      ⟨n, h', heq, hw', houtline | houtline, -⟩ | ⟨h', heq, hw', houtline⟩
    · rw [heq]
      exact .same hw' houtline
    · rw [heq]
      exact .opened hw' now houtline
    · rw [heq]
      exact .made hw' houtline
  | undo mem now target s =>
    show h.Leaves _ (h.undo mem now target s).2.1
    rcases outline_undo mem now hw target s with ⟨-, -, heq⟩ | ⟨answer, h', s', heq, hw', hact⟩
    · rw [heq]
      exact .same hw rfl
    · rw [heq, HistoryStep.act, hact]
      exact .made hw' rfl
  | redo mem now target s =>
    show h.Leaves _ (h.redo mem now target s).2.1
    rcases outline_redo mem now hw target s with ⟨-, -, heq⟩ | ⟨answer, h', s', heq, hw', hact⟩
    · rw [heq]
      exact .same hw rfl
    · rw [heq, HistoryStep.act, hact]
      exact .made hw' rfl
  | clear => exact .made (wellFormed_clear h) rfl
  | setEnabled on => exact .made ⟨hw.applied_le, hw.tiled, hw.heldBytes, hw.phase⟩ rfl

theorem not_refused_act (o : Outline) (step : HistoryStep) : step.refused (step.act o).1 = false := by
  cases step with
  | undo mem now target s =>
    simp only [HistoryStep.act, HistoryStep.refused, Outline.undo]
    split
    · rfl
    · split
      · next heq =>
        obtain ⟨id, reason, rfl⟩ := issueAll_error heq
        rfl
      · rfl
  | redo mem now target s =>
    simp only [HistoryStep.act, HistoryStep.refused, Outline.redo]
    split
    · rfl
    · split
      · next heq =>
        obtain ⟨id, reason, rfl⟩ := issueAll_error heq
        rfl
      · rfl
  | _ => rfl

theorem Agrees.not_refused {step : HistoryStep} (hstep : h.Agrees step) :
    step.refused (step.perform h).1 = false := by
  rw [hstep.outcome]
  exact not_refused_act _ _

/-! ## Runs -/

def run (h : History) : List HistoryStep → History
  | [] => h
  | step :: rest => run (step.perform h).2 rest

/-- No step of the run is refused memory. -/
def Unrefused (h : History) : List HistoryStep → Prop
  | [] => True
  | step :: rest => step.refused (step.perform h).1 = false ∧ Unrefused (step.perform h).2 rest

end History

def Outline.run (o : Outline) : List HistoryStep → Outline
  | [] => o
  | step :: rest => run (step.act o).2 rest

namespace History

variable {h : History}

/-- A run does to the outline what it does to the history. -/
theorem outline_run (hw : h.WellFormed) (steps : List HistoryStep) (hsteps : h.Unrefused steps) :
    (h.run steps).WellFormed ∧ (h.run steps).outline = h.outline.run steps := by
  induction steps generalizing h with
  | nil => exact ⟨hw, rfl⟩
  | cons step rest ih =>
    rcases agrees_or_refuses hw step with hstep | hstep
    · obtain ⟨hlast, houtline⟩ := ih hstep.wellFormed hsteps.2
      rw [run, Outline.run, ← hstep.outline]
      exact ⟨hlast, houtline⟩
    · have := hsteps.1
      rw [hstep.refused] at this
      cases this

/-- `h` is read as the outline `o`, and every operation does to it what it does to `o`. -/
structure Follows (h : History) (o : Outline) : Prop where
  /-- The sequences with their operations are what can be undone and then what can be redone. -/
  sequences : (h.sequences.map fun seq =>
    ({ id := seq.id, operations := h.operationsOf seq } : Group)) = o.undoable ++ o.redoable
  undoCount : h.undoCount = o.undoable.length
  redoCount : h.redoCount = o.redoable.length
  opened : h.opened = o.opened
  enabled : h.enabled = o.enabled
  step : ∀ step : HistoryStep, step.refused (step.perform h).1 = false →
    (step.perform h).1 = (step.act o).1 ∧ (step.perform h).2.outline = (step.act o).2
  /-- Nothing is refused by memory that grants what is asked for. -/
  granted : ∀ step : HistoryStep, step.Granted → step.refused (step.perform h).1 = false

theorem follows_outline (hw : h.WellFormed) : h.Follows h.outline where
  sequences := h.groups_eq
  undoCount := (length_undoable hw).symm
  redoCount := by
    rw [redoCount, outline, List.length_drop, length_groups]
  opened := rfl
  enabled := rfl
  step step hno := by
    rcases agrees_or_refuses hw step with hstep | hstep
    · exact ⟨hstep.outcome, hstep.outline⟩
    · rw [hstep.refused] at hno
      cases hno
  granted step hgranted := by
    rcases agrees_or_refuses hw step with hstep | hstep
    · exact hstep.not_refused
    · exact absurd hgranted hstep.granted

/-- Whatever is done to a new history, as long as no memory is refused it follows the outline to
which the same is done. -/
theorem run_follows_outline (settings : HistorySettings) (steps : List HistoryStep)
    (hsteps : Unrefused { settings } steps) :
    (run { settings } steps).Follows (Outline.run { settings } steps) := by
  obtain ⟨hw, houtline⟩ := outline_run (wellFormed_new settings) steps hsteps
  rw [show Outline.run { settings } steps = (run { settings } steps).outline from houtline.symm]
  exact follows_outline hw

def oneSequence : HistorySettings := { maxSequences := 1, windowMs := 10 }

/-- Two sequences, the second because the window of the first has passed and the first evicted by
it; a refused and a granted undo, and an edit that is not recorded. -/
def evictingSteps : List HistoryStep :=
  [.beginSequence .ample 0, .record .ample 0 0 (.insert [104]) 0 1,
    .record .ample 20 1 (.replace [] [105, 106]) 1 3, .record .ample 25 0 (.delete [104]) 3 2,
    .undo .ample 26 CallLog.replayTarget { failAt := some 1 },
    .undo .ample 27 CallLog.replayTarget {}, .setEnabled false,
    .record .ample 28 0 (.insert [107]) 0 1]

/-- The run follows its outline to the end, and the outline tells the answers of both undos: the error
of the second operation, whose call is refused, and then the cursor before it. -/
theorem run_follows_outline_evicting :
    Unrefused { settings := oneSequence } evictingSteps ∧
      (run { settings := oneSequence } evictingSteps).redoCount = 1 ∧
      ((run { settings := oneSequence } (evictingSteps.take 4)).undo .ample 26
        CallLog.replayTarget { failAt := some 1 }).1 = .error (.invalidState 2 "refused") ∧
      ((run { settings := oneSequence } (evictingSteps.take 5)).undo .ample 27
        CallLog.replayTarget {}).1 = .ok 1 := by
  have hsteps : Unrefused { settings := oneSequence } evictingSteps :=
    ⟨rfl, rfl, rfl, rfl, rfl, rfl, rfl, rfl, trivial⟩
  have hfirst := (run_follows_outline oneSequence (evictingSteps.take 4)
    ⟨rfl, rfl, rfl, rfl, trivial⟩).step
      (.undo .ample 26 CallLog.replayTarget { failAt := some 1 }) rfl
  have hsecond := (run_follows_outline oneSequence (evictingSteps.take 5)
    ⟨rfl, rfl, rfl, rfl, rfl, trivial⟩).step (.undo .ample 27 CallLog.replayTarget {}) rfl
  refine ⟨hsteps, ?_, ?_, ?_⟩
  · rw [(run_follows_outline _ evictingSteps hsteps).redoCount]
    decide +kernel
  · exact (congrArg Prod.fst hfirst.1).trans rfl
  · exact (congrArg Prod.fst hsecond.1).trans rfl

end History

end TextStore
