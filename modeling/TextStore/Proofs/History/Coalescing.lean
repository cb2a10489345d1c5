import TextStore.Proofs.History.Eviction
import TextStore.Proofs.History.Grouping

/-!
# Histories group by the start of a window

* `windows`, `openWindow?` : the sequences of a history as groups with a start. Committing keeps the
  starts with the groups (`windows_commit`), and keeps them all when they fit the limits
  (`windows_commit_of_fits`);
* `Timely` : every operation was recorded within the window of its sequence. All steps keep this,
  also refused ones, when the clock never goes back (`timely_perform`, `timely_run`);
* `Forms h g h'` : what `h` became has the groups that the rule formed. Every call keeps this
  (`Forms.take`, `Forms.takeAll`);
* `run_coalesces` : after every run, the calls that record, open and close form the groups of the
  rule.
-/

namespace TextStore

def OpenSequence.window (s : OpenSequence) : Window :=
  { startedAt := s.startedAt, operations := s.operations }

def OpenSequence.group (s : OpenSequence) : Group := { id := s.id, operations := s.operations }

/-! ## Limits -/

/-- The groups keep both limits. -/
def Fits (limits : HistorySettings) (ws : List Window) : Prop :=
  ws.length ≤ limits.maxSequences ∧
    Operation.textLength (ws.flatMap Window.operations) ≤ limits.maxMemory

theorem Fits.mono {limits : HistorySettings} {ws ws' : List Window} (h : Fits limits ws')
    (hle : ws <+: ws') : Fits limits ws := by
  obtain ⟨rest, rfl⟩ := hle
  obtain ⟨hlength, hbytes⟩ := h
  rw [List.length_append] at hlength
  rw [List.flatMap_append, Operation.textLength_append] at hbytes
  constructor <;> omega

theorem affordable_of_fits {limits : HistorySettings} {ws : List Window} {gs : List Group}
    (hsame : gs.map Group.operations = ws.map Window.operations) (h : Fits limits ws) :
    Affordable limits gs := by
  have hlength : gs.length = ws.length := by simpa using congrArg List.length hsame
  rw [Affordable, Group.textLength, hlength, List.flatMap_def, hsame, ← List.flatMap_def]
  exact h

theorem trim_of_affordable {limits : HistorySettings} {gs : List Group}
    (h : Affordable limits gs) : trim limits gs = gs := by
  obtain ⟨hlength, hbytes⟩ := h
  cases gs with
  | nil => rfl
  | cons g rest => exact if_neg (by omega)

/-- The operations of `w` were recorded within `window` of its start, and none of the times to come
is before that. -/
structure Window.InTime (window : Nat) (times : List Nat) (w : Window) : Prop where
  begun : ∀ t ∈ times, w.startedAt ≤ t
  within : ∀ op ∈ w.operations, w.startedAt ≤ op.recordedAt ∧ op.recordedAt ≤ w.startedAt + window

namespace GroupingCall

/-- The call as a step of a history, when it finds the memory `mem`. -/
def step (mem : Memory) : GroupingCall → HistoryStep
  | beginSequence now => .beginSequence mem now
  | closeSequence now => .closeSequence mem now
  | record now position edit cursorBefore cursorAfter =>
    .record mem now position edit cursorBefore cursorAfter

/-- Calls as steps, each with the memory that it finds. -/
def steps (calls : List (Memory × GroupingCall)) : List HistoryStep :=
  calls.map fun call => call.2.step call.1

end GroupingCall

namespace HistoryStep

/-- The time a step is made at. -/
def now? : HistoryStep → Option Nat
  | beginSequence _ now | closeSequence _ now | record _ now .. | undo _ now .. | redo _ now .. =>
    some now
  | clear | setEnabled _ => none

/-- The times of several steps. -/
def times (steps : List HistoryStep) : List Nat := steps.flatMap fun step => step.now?.toList

end HistoryStep

namespace History

variable {h h' : History} {mem : Memory} {now window : Nat} {times : List Nat}

/-! ## The windows of a history -/

def windowOf (h : History) (seq : Sequence) : Window :=
  { startedAt := seq.startedAt, operations := h.operationsOf seq }

/-- The committed sequences as groups with a start, oldest first. -/
def windows (h : History) : List Window := h.sequences.map h.windowOf

def openWindow? (h : History) : Option Window := h.opened.map OpenSequence.window

/-- All sequences as groups with a start, the open one last. -/
def allWindows (h : History) : List Window := h.windows ++ h.openWindow?.toList

theorem openWindow?_of_opened {s : OpenSequence} (hopen : h.opened = some s) :
    h.openWindow? = some s.window := by
  rw [openWindow?, hopen]
  rfl

theorem exists_opened {w : Window} (hopen : h.openWindow? = some w) :
    ∃ s, h.opened = some s ∧ s.window = w :=
  Option.map_eq_some_iff.1 hopen

theorem mem_allWindows {h : History} {w : Window} :
    w ∈ h.allWindows ↔ w ∈ h.windows ∨ h.openWindow? = some w := by
  rw [allWindows, List.mem_append, Option.mem_toList]

theorem length_windows (h : History) : h.windows.length = h.groups.length := by
  rw [windows, groups, List.length_map, List.length_map]

theorem operations_windows (h : History) :
    h.windows.map Window.operations = h.groups.map Group.operations := by
  simp only [windows, groups, List.map_map]
  rfl

/-- The starts of the committed sequences. They do not depend on the ranges. -/
def starts (h : History) : List Nat := h.sequences.map Sequence.startedAt

theorem windows_eq_zipWith (h : History) :
    h.windows = List.zipWith Window.mk h.starts (h.groups.map Group.operations) := by
  rw [starts, groups, List.map_map, List.zipWith_map, List.zipWith_self]
  rfl

theorem starts_dropRedoable (h : History) : h.dropRedoable.starts = h.starts.take h.applied := by
  unfold dropRedoable nextSequence?
  split
  · next hnone =>
    rw [List.take_of_length_le]
    simpa [starts] using hnone
  · simp only [starts, List.map_take]

theorem starts_evictOldest (h : History) : h.evictOldest.starts <:+ h.starts := by
  unfold evictOldest
  split
  · exact List.suffix_refl _
  · simp only [starts, List.map_map]
    exact (List.drop_suffix _ _).map _

/-- The undoable groups and then one more. -/
theorem windows_take_append (h : History) (s : OpenSequence) :
    h.windows.take h.applied ++ [s.window] =
      List.zipWith Window.mk (h.starts.take h.applied ++ [s.startedAt])
        ((h.groups.take h.applied ++ [s.group]).map Group.operations) := by
  rw [List.map_append, List.zipWith_append, List.map_take, ← List.take_zipWith,
    ← windows_eq_zipWith]
  · rfl
  · simp [starts, groups]

theorem groups_commit (hw : h.WellFormed) (s : OpenSequence) (now : Nat) (hs : s.operations ≠ []) :
    ((h.dropRedoable.append s now).evictOldest).groups =
      trim h.settings (h.groups.take h.applied ++ [s.group]) := by
  rw [groups_eq, (outline_commit hw s now hs).2, List.append_nil]
  rfl

/-- Committing leaves a suffix of the undoable groups and the new one, with their starts. -/
theorem windows_commit (hw : h.WellFormed) (s : OpenSequence) (now : Nat) (hs : s.operations ≠ []) :
    ((h.dropRedoable.append s now).evictOldest).windows <:+
      h.windows.take h.applied ++ [s.window] := by
  have hgroups := groups_commit hw s now hs
  obtain ⟨n, hdrop, hlt⟩ := trim_eq_drop h.settings (h.groups.take h.applied ++ [s.group])
  have hn := hlt (by simp)
  rw [hdrop] at hgroups
  have hstarts : ((h.dropRedoable.append s now).evictOldest).starts <:+
      h.starts.take h.applied ++ [s.startedAt] := by
    rw [← starts_dropRedoable]
    refine (starts_evictOldest _).trans ?_
    simp [starts, append]
  rw [List.suffix_iff_eq_drop] at hstarts
  -- as many starts as groups are left, so the same number of both is dropped
  have hcount : (h.starts.take h.applied ++ [s.startedAt]).length -
      ((h.dropRedoable.append s now).evictOldest).starts.length = n := by
    have hleft := congrArg List.length hgroups
    simp only [starts, groups, List.length_map, List.length_append, List.length_take,
      List.length_drop, List.length_singleton] at hleft hn ⊢
    omega
  rw [windows_take_append, windows_eq_zipWith, hgroups, List.map_drop, hstarts, hcount,
    ← List.drop_zipWith]
  exact List.drop_suffix _ _

/-- Every group that committing leaves can be undone. -/
theorem applied_commit (hw : h.WellFormed) (s : OpenSequence) (now : Nat) (hs : s.operations ≠ []) :
    ((h.dropRedoable.append s now).evictOldest).applied =
      ((h.dropRedoable.append s now).evictOldest).windows.length := by
  obtain ⟨hw', houtline⟩ := outline_commit hw s now hs
  rw [length_windows, groups_commit hw s now hs, ← length_undoable hw', houtline]
  rfl

/-- With room for one more group, committing keeps all undoable groups. -/
theorem windows_commit_of_fits (hw : h.WellFormed) (s : OpenSequence) (now : Nat)
    (hs : s.operations ≠ [])
    (hfits : Fits h.settings (h.windows.take h.applied ++ [s.window])) :
    ((h.dropRedoable.append s now).evictOldest).windows =
      h.windows.take h.applied ++ [s.window] := by
  have hsame : (h.groups.take h.applied ++ [s.group]).map Group.operations =
      (h.windows.take h.applied ++ [s.window]).map Window.operations := by
    rw [List.map_append, List.map_append, List.map_take, List.map_take, operations_windows]
    rfl
  apply (windows_commit hw s now hs).eq_of_length
  rw [length_windows, groups_commit hw s now hs,
    trim_of_affordable (affordable_of_fits hsame hfits)]
  simpa using congrArg List.length hsame

/-! ## Closing and opening -/

/-- The history without its open sequence. -/
def withoutOpen (h : History) : History := { h with opened := none, phase := .idle }

theorem wellFormed_withoutOpen (hw : h.WellFormed) : h.withoutOpen.WellFormed :=
  ⟨hw.applied_le, hw.tiled, hw.heldBytes, rfl⟩

/-- Closing drops an open sequence that has no operations, and commits one that has some. -/
theorem closeSequence_inv (hw : h.WellFormed) (hclose : h.closeSequence mem now = (.ok (), h')) :
    (h.openOperations = [] ∧ h' = h.withoutOpen) ∨
      ∃ s, h.opened = some s ∧ s.operations ≠ [] ∧
        h' = (h.withoutOpen.dropRedoable.append s now).evictOldest := by
  unfold closeSequence at hclose
  split at hclose
  · next hopen =>
    obtain rfl : h = h' := congrArg Prod.snd hclose
    refine .inl ⟨by rw [openOperations, hopen], ?_⟩
    rw [withoutOpen, ← hopen, show Phase.idle = h.phase by rw [hw.phase, hopen]; rfl]
  · next s hopen =>
    split at hclose
    · next hempty =>
      refine .inl ⟨?_, (congrArg Prod.snd hclose).symm⟩
      rw [openOperations, hopen]
      exact List.isEmpty_iff.1 hempty
    · next hne =>
      split at hclose
      · exact .inr ⟨s, hopen, fun hnil => hne (List.isEmpty_iff.2 hnil),
          (congrArg Prod.snd hclose).symm⟩
      · cases hclose

/-- Closing changes the committed part only. -/
theorem sameFrame_closeSequence (hw : h.WellFormed)
    (hclose : h.closeSequence mem now = (.ok (), h')) : h.withoutOpen.SameFrame h' := by
  rcases closeSequence_inv hw hclose with ⟨-, rfl⟩ | ⟨s, -, -, rfl⟩
  · exact ⟨rfl, rfl, rfl, rfl, rfl, rfl⟩
  · have happend : h.withoutOpen.dropRedoable.SameFrame
        (h.withoutOpen.dropRedoable.append s now) := ⟨rfl, rfl, rfl, rfl, rfl, rfl⟩
    exact ((sameFrame_dropRedoable _).trans happend).trans (sameFrame_evictOldest _)

theorem beginSequence_inv (hbegin : h.beginSequence mem now = (.ok (), h')) :
    ∃ h₁, h.closeSequence mem now = (.ok (), h₁) ∧ h' = h₁.startSequence now := by
  unfold beginSequence at hbegin
  split at hbegin
  · cases hbegin
  · next h₁ hclose => exact ⟨h₁, hclose, (congrArg Prod.snd hbegin).symm⟩

/-- An edit at `now` joins an open sequence whose window lasts; otherwise a sequence is opened, as
it would be by hand. -/
theorem ensureOpen_inv (h : History) (mem : Memory) (now : Nat) :
    (∃ s, h.opened = some s ∧ now ≤ s.startedAt + h.settings.windowMs ∧
      h.ensureOpen mem now = (.ok (), h)) ∨
    ((∀ s, h.opened = some s → s.startedAt + h.settings.windowMs < now) ∧
      h.ensureOpen mem now = h.beginSequence mem now) := by
  unfold ensureOpen
  split
  · next hopen =>
    refine .inr ⟨fun s hs => ?_, ?_⟩
    · rw [hopen] at hs
      cases hs
    · rw [beginSequence, closeSequence, hopen]
  · next s hopen =>
    split
    · next hlate =>
      refine .inr ⟨fun s' hs' => ?_, rfl⟩
      obtain rfl : s = s' := Option.some.inj (hopen.symm.trans hs')
      omega
    · exact .inl ⟨s, hopen, by omega, rfl⟩

/-! ## Operations lie within their window -/

/-- All sequences are in time. -/
def Timely (window : Nat) (times : List Nat) (h : History) : Prop :=
  ∀ w ∈ h.allWindows, w.InTime window times

theorem Timely.mono (ht : h.Timely window times) {times' : List Nat} (hsub : times' ⊆ times) :
    h.Timely window times' :=
  fun w hw => ⟨fun t hin => (ht w hw).begun t (hsub hin), (ht w hw).within⟩

/-- Closing makes no sequence that was not there. -/
theorem timely_closeSequence (hw : h.WellFormed) (ht : h.Timely window times) (mem : Memory)
    (now : Nat) : (h.closeSequence mem now).2.Timely window times := by
  rcases closeSequence_cases mem now hw with ⟨-, -, heq⟩ | ⟨h', heq, -, -⟩
  · rw [heq]
    exact ht
  · rw [heq]
    intro w hmem
    apply ht
    rcases mem_allWindows.1 hmem with hmem | hopen
    · rcases closeSequence_inv hw heq with ⟨-, rfl⟩ | ⟨s, hopen, hs, rfl⟩
      · exact mem_allWindows.2 (.inl hmem)
      · have hkept := (windows_commit (wellFormed_withoutOpen hw) s now hs).subset hmem
        rcases List.mem_append.1 hkept with hold | hnew
        · exact mem_allWindows.2 (.inl (List.mem_of_mem_take hold))
        · obtain rfl := List.mem_singleton.1 hnew
          exact mem_allWindows.2 (.inr (openWindow?_of_opened hopen))
    · rw [openWindow?, (sameFrame_closeSequence hw heq).opened] at hopen
      cases hopen

theorem timely_startSequence (ht : h.Timely window times) (hnow : ∀ t ∈ times, now ≤ t) :
    (h.startSequence now).Timely window times := by
  intro w hw
  rcases mem_allWindows.1 hw with hclosed | hopen
  · exact ht w (mem_allWindows.2 (.inl hclosed))
  · obtain rfl : { startedAt := now, operations := [] } = w := Option.some.inj hopen
    exact ⟨hnow, fun op hop => by cases hop⟩

theorem timely_beginSequence (hw : h.WellFormed) (ht : h.Timely window times)
    (hnow : ∀ t ∈ times, now ≤ t) (mem : Memory) :
    (h.beginSequence mem now).2.Timely window times := by
  have hclose := timely_closeSequence hw ht mem now
  unfold beginSequence
  split
  · next heq =>
    rw [heq] at hclose
    exact hclose
  · next heq =>
    rw [heq] at hclose
    exact timely_startSequence hclose hnow

theorem timely_addOperation (ht : h.Timely window times) {s : OpenSequence}
    (hopen : h.opened = some s) (hstart : s.startedAt ≤ now) (hend : now ≤ s.startedAt + window)
    (mem : Memory) (position : Nat) (edit : Edit) (cursorBefore cursorAfter : Nat) :
    (h.addOperation mem now position edit cursorBefore cursorAfter).2.Timely window times := by
  simp only [addOperation, hopen]
  split
  · intro w hw
    rcases mem_allWindows.1 hw with hclosed | hopen'
    · exact ht w (mem_allWindows.2 (.inl hclosed))
    · have hs := ht s.window (mem_allWindows.2 (.inr (openWindow?_of_opened hopen)))
      obtain rfl := Option.some.inj hopen'
      refine ⟨hs.begun, fun op hop => ?_⟩
      rcases List.mem_append.1 hop with hold | hnew
      · exact hs.within op hold
      · obtain rfl := List.mem_singleton.1 hnew
        exact ⟨hstart, hend⟩
  · exact ht

/-- A refused record can still open a sequence, and that is in time as well. -/
theorem timely_record (hw : h.WellFormed) (hwindow : h.settings.windowMs = window)
    (ht : h.Timely window (now :: times)) (hclock : ∀ t ∈ times, now ≤ t) (mem : Memory)
    (position : Nat) (edit : Edit) (cursorBefore cursorAfter : Nat) :
    (h.record mem now position edit cursorBefore cursorAfter).2.Timely window (now :: times) := by
  have hnow : ∀ t ∈ now :: times, now ≤ t := List.forall_mem_cons.2 ⟨Nat.le_refl _, hclock⟩
  unfold record
  split
  · exact ht
  · split
    · exact ht
    · rcases h.ensureOpen_inv mem now with ⟨s, hopen, hend, heq⟩ | ⟨-, heq⟩
      · have hs := ht s.window (mem_allWindows.2 (.inr (openWindow?_of_opened hopen)))
        have hstart : s.startedAt ≤ now := hs.begun now (List.mem_cons_self ..)
        rw [heq]
        exact timely_addOperation ht hopen hstart (hwindow ▸ hend) _ _ _ _ _
      · have hbegin := timely_beginSequence hw ht hnow mem
        rw [heq]
        split
        · next heq' =>
          rw [heq'] at hbegin
          exact hbegin
        · next h₁ heq' =>
          rw [heq'] at hbegin
          obtain ⟨h₂, -, rfl⟩ := beginSequence_inv heq'
          exact timely_addOperation hbegin rfl (Nat.le_refl _) (Nat.le_add_right _ _) _ _ _ _ _

theorem allWindows_undo {σ : Type} (h : History) (mem : Memory) (now : Nat)
    (target : ReplayTarget σ) (s : σ) :
    (h.undo mem now target s).2.1.allWindows = (h.closeSequence mem now).2.allWindows := by
  unfold undo
  rcases h.closeSequence mem now with ⟨e | ⟨⟩, h'⟩
  · rfl
  · simp only
    split
    · rfl
    · split <;> rfl

theorem allWindows_redo {σ : Type} (h : History) (mem : Memory) (now : Nat)
    (target : ReplayTarget σ) (s : σ) :
    (h.redo mem now target s).2.1.allWindows = (h.closeSequence mem now).2.allWindows := by
  unfold redo
  rcases h.closeSequence mem now with ⟨e | ⟨⟩, h'⟩
  · rfl
  · simp only
    split
    · rfl
    · split <;> rfl

theorem timely_perform (hw : h.WellFormed) (hwindow : h.settings.windowMs = window)
    (step : HistoryStep) (ht : h.Timely window (step.now?.toList ++ times))
    (hclock : ∀ now ∈ step.now?.toList, ∀ t ∈ times, now ≤ t) :
    (step.perform h).2.Timely window times := by
  have hlater := ht.mono (List.subset_append_right _ times)
  cases step with
  | beginSequence mem now =>
    exact timely_beginSequence hw hlater (hclock now (List.mem_singleton.2 rfl)) mem
  | closeSequence mem now => exact timely_closeSequence hw hlater mem now
  | record mem now position edit cursorBefore cursorAfter =>
    have hrecord := timely_record hw hwindow ht (hclock now (List.mem_singleton.2 rfl)) mem position
      edit cursorBefore cursorAfter
    exact hrecord.mono (List.subset_cons_self _ _)
  | undo mem now target s =>
    show (h.undo mem now target s).2.1.Timely window times
    rw [Timely, allWindows_undo]
    exact timely_closeSequence hw hlater mem now
  | redo mem now target s =>
    show (h.redo mem now target s).2.1.Timely window times
    rw [Timely, allWindows_redo]
    exact timely_closeSequence hw hlater mem now
  | clear => exact fun w hw => by cases hw
  | setEnabled on => exact hlater

/-- When the clock never goes back, every operation is recorded within the window of its
sequence. -/
theorem timely_run (hw : h.WellFormed) {limits : HistorySettings}
    (hlimits : h.outline.Within limits)
    (steps : List HistoryStep) (ht : h.Timely limits.windowMs (HistoryStep.times steps))
    (hclock : (HistoryStep.times steps).Pairwise (· ≤ ·)) :
    (h.run steps).Timely limits.windowMs [] := by
  induction steps generalizing h with
  | nil => exact ht
  | cons step rest ih =>
    rw [HistoryStep.times, List.flatMap_cons] at ht hclock
    obtain ⟨-, hrest, hacross⟩ := List.pairwise_append.1 hclock
    have hwindow : h.settings.windowMs = limits.windowMs := congrArg _ hlimits.settings
    exact ih (precedes_perform hw step).wellFormed (within_perform hw hlimits step)
      (timely_perform hw hwindow step ht hacross) hrest

/-! ## Groups are formed as the rule says -/

/-- `h'` is `h` with the groups of `g` formed since. -/
structure Forms (h : History) (g : Grouping) (h' : History) : Prop where
  wellFormed : h'.WellFormed
  enabled : h'.enabled = true
  settings : h'.settings = h.settings
  undoable : h'.windows.take h'.applied = h.windows.take h.applied ++ g.closed
  redoable : h'.windows.drop h'.applied = if g.closed = [] then h.windows.drop h.applied else []
  opened : h'.openWindow? = g.opened
  nextId : h'.nextOperationId = g.nextId

namespace Forms

variable {g : Grouping} {h'' : History}

theorem close (hf : h.Forms g h')
    (hfits : Fits h.settings (h.windows.take h.applied ++ g.close.closed))
    (hclose : h'.closeSequence mem now = (.ok (), h'')) : h.Forms g.close h'' := by
  have hframe := sameFrame_closeSequence hf.wellFormed hclose
  have hw := wellFormed_closeSequence mem now hf.wellFormed
  rw [hclose] at hw
  have hopened : h''.openWindow? = none := by rw [openWindow?, hframe.opened]; rfl
  rcases closeSequence_inv hf.wellFormed hclose with ⟨hops, rfl⟩ | ⟨s, hopen, hs, rfl⟩
  · have hnil (w : Window) (hgopen : g.opened = some w) : w.operations = [] := by
      obtain ⟨s, hopen, rfl⟩ := exists_opened (hf.opened.trans hgopen)
      rwa [openOperations, hopen] at hops
    rw [Grouping.close_of_nil hnil]
    exact ⟨hw, hf.enabled, hf.settings, hf.undoable, hf.redoable, hopened, hf.nextId⟩
  · have hgopen : g.opened = some s.window := hf.opened.symm.trans (openWindow?_of_opened hopen)
    rw [Grouping.close_of_ne_nil hgopen hs] at hfits ⊢
    rw [← List.append_assoc, ← hf.undoable, ← hf.settings] at hfits
    have hclosed := wellFormed_withoutOpen hf.wellFormed
    have hkept := windows_commit_of_fits hclosed s now hs hfits
    refine ⟨hw, hframe.enabled.trans hf.enabled, hframe.settings.trans hf.settings, ?_, ?_, hopened,
      hframe.nextOperationId.trans hf.nextId⟩
    · rw [applied_commit hclosed s now hs, List.take_length, hkept, ← List.append_assoc,
        ← hf.undoable]
      rfl
    · rw [applied_commit hclosed s now hs, List.drop_length, if_neg (by simp)]

theorem startSequence (hf : h.Forms g h') (now : Nat) :
    h.Forms { g with opened := some { startedAt := now, operations := [] } }
      (h'.startSequence now) :=
  ⟨(startSequence_spec hf.wellFormed now).1, hf.enabled, hf.settings, hf.undoable, hf.redoable, rfl,
    hf.nextId⟩

theorem beginSequence (hf : h.Forms g h')
    (hfits : Fits h.settings (h.windows.take h.applied ++ g.close.closed))
    (hbegin : h'.beginSequence mem now = (.ok (), h'')) : h.Forms (g.start now []) h'' := by
  obtain ⟨h₁, hclose, rfl⟩ := beginSequence_inv hbegin
  exact (hf.close hfits hclose).startSequence now

theorem addOperation (hf : h.Forms g h') {w : Window} (hopen : g.opened = some w)
    {position : Nat} {edit : Edit} {cursorBefore cursorAfter : Nat}
    (hadd : h'.addOperation mem now position edit cursorBefore cursorAfter = (.ok (), h'')) :
    h.Forms
      { g with
        opened := some { w with operations := w.operations ++
          [{ id := g.nextId, position, edit, cursorBefore, cursorAfter, recordedAt := now }] }
        nextId := g.nextId + 1 } h'' := by
  obtain ⟨s, hs, rfl⟩ := exists_opened (hf.opened.trans hopen)
  have hw := hf.wellFormed
  simp only [History.addOperation, hs] at hadd
  split at hadd
  · obtain rfl := congrArg Prod.snd hadd
    refine ⟨⟨hw.applied_le, hw.tiled, hw.heldBytes, ?_⟩, hf.enabled, hf.settings, hf.undoable,
      hf.redoable, ?_, congrArg (· + 1) hf.nextId⟩
    · rw [hw.phase, hs]
      rfl
    · rw [← hf.nextId]
      rfl
  · cases hadd

theorem record (hf : h.Forms g h') {position : Nat} {edit : Edit} {cursorBefore cursorAfter : Nat}
    (hfits : Fits h.settings (h.windows.take h.applied ++ (g.take h.settings.windowMs
      (.record now position edit cursorBefore cursorAfter)).closed))
    (hrecord : h'.record mem now position edit cursorBefore cursorAfter = (.ok (), h'')) :
    h.Forms (g.take h.settings.windowMs (.record now position edit cursorBefore cursorAfter))
      h'' := by
  unfold History.record at hrecord
  rw [recordingAllowed_eq hf.wellFormed, hf.enabled] at hrecord
  simp only [Bool.not_true, Bool.false_eq_true, if_false] at hrecord
  split at hrecord
  · cases hrecord
  · rcases h'.ensureOpen_inv mem now with ⟨s, hopen, hle, heq⟩ | ⟨hlate, heq⟩
    · -- the window of the open group lasts
      have hgopen : g.opened = some s.window := hf.opened.symm.trans (openWindow?_of_opened hopen)
      rw [heq] at hrecord
      rw [hf.settings] at hle
      simp only [Grouping.take]
      rw [Grouping.join_of_le hgopen hle]
      exact hf.addOperation hgopen hrecord
    · have hglate (w : Window) (hgopen : g.opened = some w) :
          w.startedAt + h.settings.windowMs < now := by
        obtain ⟨s, hopen, rfl⟩ := exists_opened (hf.opened.trans hgopen)
        exact hf.settings ▸ hlate s hopen
      simp only [Grouping.take] at hfits ⊢
      rw [Grouping.join_of_late hglate] at hfits ⊢
      rw [heq] at hrecord
      split at hrecord
      · cases hrecord
      · next h₁ hbegin =>
        have hadd := (hf.beginSequence hfits hbegin).addOperation rfl hrecord
        simpa [Grouping.start] using hadd

theorem take (hf : h.Forms g h') (mem : Memory) (call : GroupingCall)
    (hfits : Fits h.settings
      (h.windows.take h.applied ++ (g.take h.settings.windowMs call).closed))
    (hgranted : (call.step mem).refused ((call.step mem).perform h').1 = false) :
    h.Forms (g.take h.settings.windowMs call) ((call.step mem).perform h').2 := by
  cases call with
  | beginSequence now =>
    simp only [GroupingCall.step, HistoryStep.perform] at hgranted ⊢
    rcases beginSequence_cases mem now hf.wellFormed with ⟨-, -, heq⟩ | ⟨h₁, heq, -, -⟩
    · rw [heq] at hgranted
      cases hgranted
    · rw [heq]
      exact hf.beginSequence hfits heq
  | closeSequence now =>
    simp only [GroupingCall.step, HistoryStep.perform] at hgranted ⊢
    rcases closeSequence_cases mem now hf.wellFormed with ⟨-, -, heq⟩ | ⟨h₁, heq, -, -⟩
    · rw [heq] at hgranted
      cases hgranted
    · rw [heq]
      exact hf.close hfits heq
  | record now position edit cursorBefore cursorAfter =>
    simp only [GroupingCall.step, HistoryStep.perform] at hgranted ⊢
    rcases record_cases mem now hf.wellFormed position edit cursorBefore cursorAfter with
      ⟨n, h₁, heq, -⟩ | ⟨h₁, heq, -, -⟩
    · rw [heq] at hgranted
      cases hgranted
    · rw [heq]
      exact hf.record hfits heq

theorem takeAll (hf : h.Forms g h') (calls : List (Memory × GroupingCall))
    (hfits : Fits h.settings (h.windows.take h.applied ++
      (g.takeAll h.settings.windowMs (calls.map Prod.snd)).closed))
    (hgranted : h'.Unrefused (GroupingCall.steps calls)) :
    h.Forms (g.takeAll h.settings.windowMs (calls.map Prod.snd))
      (h'.run (GroupingCall.steps calls)) := by
  induction calls generalizing g h' with
  | nil => exact hf
  | cons call rest ih =>
    obtain ⟨mem, call⟩ := call
    -- groups that close now are among those that are closed in the end
    have hlater := (g.take h.settings.windowMs call).extends_takeAll h.settings.windowMs
      (rest.map Prod.snd)
    have hnow := hfits.mono ((List.prefix_append_right_inj _).2 hlater.closed)
    exact ih (hf.take mem call hnow hgranted.1) hfits hgranted.2

end Forms

/-! ## Runs -/

/-- What is being recorded, with no group closed yet. -/
def grouping (h : History) : Grouping :=
  { opened := h.openWindow?, nextId := h.nextOperationId }

/-- The groups that calls form from `h` on, by the rule. -/
def grouped (h : History) (calls : List GroupingCall) : Grouping :=
  h.grouping.takeAll h.settings.windowMs calls

theorem forms_grouping (hw : h.WellFormed) (hon : h.enabled = true) : h.Forms h.grouping h :=
  ⟨hw, hon, rfl, (List.append_nil _).symm, (if_pos rfl).symm, rfl, rfl⟩

theorem operations_grouping (h : History) : h.grouping.operations = h.openOperations := by
  unfold Grouping.operations Grouping.all grouping openWindow? openOperations
  cases h.opened with
  | none => rfl
  | some s => simp [OpenSequence.window]

theorem numbered_grouping (hids : Numbered h.operationIds h.nextOperationId) :
    Numbered (h.grouping.operations.map Operation.id) h.nextOperationId := by
  rw [operations_grouping]
  exact (Renumbers.of_sublist ((List.sublist_append_right _ _).map _)).numbered hids

/-- The operations of a committed sequence have ids that were given already. -/
theorem id_lt_of_mem_windows (hids : Numbered h.operationIds h.nextOperationId) {w : Window}
    (hw : w ∈ h.windows) {op : Operation} (hop : op ∈ w.operations) :
    op.id < h.nextOperationId := by
  obtain ⟨seq, -, rfl⟩ := List.mem_map.1 hw
  have hmem : op ∈ h.operations := List.mem_of_mem_drop (List.mem_of_mem_take hop)
  exact hids.below _ (List.mem_map_of_mem (List.mem_append_left _ hmem))

/-- An operation with a later id is in a group that was formed since. -/
theorem Forms.mem_all {g : Grouping} (hf : h.Forms g h')
    (hids : Numbered h.operationIds h.nextOperationId) {w : Window} (hw : w ∈ h'.allWindows)
    {op : Operation} (hop : op ∈ w.operations) (hle : h.nextOperationId ≤ op.id) : w ∈ g.all := by
  have hnew (hold : w ∈ h.windows) : False :=
    Nat.not_lt.2 hle (id_lt_of_mem_windows hids hold hop)
  rcases mem_allWindows.1 hw with hin | hopen
  · rw [← List.take_append_drop h'.applied h'.windows, hf.undoable, hf.redoable] at hin
    rcases List.mem_append.1 hin with hin | hin
    · rcases List.mem_append.1 hin with hold | hclosed
      · exact (hnew (List.mem_of_mem_take hold)).elim
      · exact Grouping.mem_all.2 (.inl hclosed)
    · split at hin
      · exact (hnew (List.mem_of_mem_drop hin)).elim
      · cases hin
  · exact Grouping.mem_all.2 (.inr (hf.opened ▸ hopen))

/-- `h'` is `h` after the calls, which formed the groups of the rule. -/
structure Coalesces (h : History) (calls : List GroupingCall) (h' : History) : Prop where
  /-- Behind what could be undone stand the groups that were closed. -/
  undoable : h'.windows.take h'.applied = h.windows.take h.applied ++ (h.grouped calls).closed
  /-- The first group that is closed takes away what could be redone. -/
  redoable : h'.windows.drop h'.applied =
    if (h.grouped calls).closed = [] then h.windows.drop h.applied else []
  opened : h'.openWindow? = (h.grouped calls).opened
  /-- No operation is lost, and they stand in the order in which they were recorded. -/
  lossless : (h'.windows.take h'.applied ++ h'.openWindow?.toList).flatMap Window.operations =
    (h.windows.take h.applied).flatMap Window.operations ++ h.openOperations ++
      GroupingCall.recorded h.nextOperationId calls
  within : ∀ w ∈ h'.allWindows, ∀ op ∈ w.operations,
    w.startedAt ≤ op.recordedAt ∧ op.recordedAt ≤ w.startedAt + h.settings.windowMs
  /-- Two operations recorded one after the other are in different sequences exactly when another
  call was made between them or the second one came after the window of the first. -/
  parted : ∀ a between b, Grouping.Consecutive h.nextOperationId calls a between b →
    ∀ w ∈ h'.allWindows, a ∈ w.operations →
      (b ∉ w.operations ↔ between ≠ [] ∨ w.startedAt + h.settings.windowMs < b.recordedAt)

theorem Forms.coalesces {calls : List GroupingCall} (hf : h.Forms (h.grouped calls) h')
    (hids : Numbered h.operationIds h.nextOperationId)
    (ht : h'.Timely h.settings.windowMs []) : h.Coalesces calls h' where
  undoable := hf.undoable
  redoable := hf.redoable
  opened := hf.opened
  lossless := by
    have hrule := h.grouping.operations_takeAll h.settings.windowMs calls
    rw [operations_grouping] at hrule
    rw [hf.undoable, hf.opened, List.append_assoc, List.flatMap_append, List.append_assoc]
    exact congrArg _ hrule
  within w hw := (ht w hw).within
  parted a between b hab w hw ha := by
    obtain ⟨before, first, second, after, -, hfirst, -⟩ := hab.place
    have hid := GroupingCall.id_of_operation hfirst
    have hall := hf.mem_all hids hw ha (by omega)
    exact Grouping.parted_iff (numbered_grouping hids) hab hall ha

/-- Whatever was done to a new history: while it records and no limit is reached, calls that record
operations, open sequences and close them form the groups of the rule. -/
theorem run_coalesces (settings : HistorySettings) (steps : List HistoryStep)
    (calls : List (Memory × GroupingCall))
    (hclock : (HistoryStep.times (steps ++ GroupingCall.steps calls)).Pairwise (· ≤ ·))
    (hon : (run { settings } steps).enabled = true)
    (hgranted : (run { settings } steps).Unrefused (GroupingCall.steps calls))
    (hlimits : Fits settings
      ((run { settings } steps).windows.take (run { settings } steps).applied ++
        ((run { settings } steps).grouped (calls.map Prod.snd)).closed)) :
    (run { settings } steps).Coalesces (calls.map Prod.snd)
      (run { settings } (steps ++ GroupingCall.steps calls)) := by
  have hsound := (precedes_run (wellFormed_new settings) steps).sound
  have hnew : Outline.Within settings (outline { settings }) := ⟨rfl, bounded_nil settings⟩
  have hsettings : (run { settings } steps).settings = settings :=
    (within_run (wellFormed_new settings) hnew steps).settings
  have htimely := timely_run (wellFormed_new settings) hnew (steps ++ GroupingCall.steps calls)
    (fun w hw => by cases hw) hclock
  rw [run_append] at htimely ⊢
  have hfits := (congrArg (Fits · _) hsettings).mpr hlimits
  have hforms := (forms_grouping hsound.wellFormed hon).takeAll calls hfits hgranted
  refine hforms.coalesces hsound.operationIds ?_
  rw [hsettings]
  exact htimely

/-- An operation at the end of the window, one after it, and one after a sequence that was opened
and left empty. -/
def expiringCalls : List (Memory × GroupingCall) :=
  [(.ample, .record 10 1 (.insert [98]) 1 2), (.ample, .record 11 2 (.insert [99]) 2 3),
    (.ample, .beginSequence 12), (.ample, .record 23 3 (.insert [100]) 3 4),
    (.ample, .closeSequence 24), (.ample, .record 25 0 (.delete [97]) 4 3)]

theorem run_coalesces_expiring : ∃ h h',
    h = run { settings := { windowMs := 10 } } [.record .ample 0 0 (.insert [97]) 0 1] ∧
      h.Coalesces (expiringCalls.map Prod.snd) h' ∧
      (h'.windows.map fun w => (w.startedAt, w.operations.map Operation.id)) =
        [(0, [1, 2]), (11, [3]), (23, [4])] := by
  have hcoalesces := run_coalesces { windowMs := 10 } [.record .ample 0 0 (.insert [97]) 0 1]
    expiringCalls (by decide) rfl ⟨rfl, rfl, rfl, rfl, rfl, rfl, trivial⟩
    ⟨by decide +kernel, by decide +kernel⟩
  exact ⟨_, _, rfl, hcoalesces, by decide +kernel⟩

end History

end TextStore
