import TextStore.History.Record
import TextStore.Proofs.History.DueCalls
import TextStore.Proofs.History.Groups

/-!
# A history is two lists of groups and an open one

* `Outline` : what can be undone, what can be redone and what is being recorded, as groups; its
  operations are those of a history without ranges, byte counts and memory, and a replay is the calls
  that are due;
* `History.outline` : the outline of a history;
* `canUndo_iff`, `canRedo_iff` : what can be undone and redone, read off the outline;
* `closeSequence_cases`, `beginSequence_cases`, `record_cases`, `outline_undo`, `outline_redo` : each
  operation of a well-formed history does to its outline what the outline's own operation does, or
  is refused memory.
-/

namespace TextStore

/-- A history as groups. -/
structure Outline where
  settings : HistorySettings
  /-- The groups that can be undone, oldest first. -/
  undoable : List Group := []
  /-- The groups that can be redone, the next one first. -/
  redoable : List Group := []
  /-- The group that takes operations now, with the time its window began. -/
  opened : Option OpenSequence := none
  enabled : Bool := true
  nextOperationId : Nat := 1
  nextSequenceId : Nat := 1
  deriving DecidableEq, Repr

namespace Outline

/-- Closes the open group. One with operations becomes the last that can be undone: nothing can be
redone after it, and the oldest groups go while a limit is exceeded. -/
def close (o : Outline) : Outline :=
  match o.opened with
  | none => o
  | some s =>
    if s.operations = [] then { o with opened := none }
    else
      { o with
        undoable := trim o.settings (o.undoable ++ [{ id := s.id, operations := s.operations }])
        redoable := []
        opened := none }

def start (now : Nat) (o : Outline) : Outline :=
  { o with
    opened := some { id := o.nextSequenceId, startedAt := now }
    nextSequenceId := o.nextSequenceId + 1 }

/-- Opens a group if none is open or if the window of the open one has passed. -/
def ensureOpen (now : Nat) (o : Outline) : Outline :=
  match o.opened with
  | none => o.start now
  | some s => if o.settings.windowMs < now - s.startedAt then o.close.start now else o

def newOperation (o : Outline) (now position : Nat) (edit : Edit) (cursorBefore cursorAfter : Nat) :
    Operation :=
  { id := o.nextOperationId, position, edit, cursorBefore, cursorAfter, recordedAt := now }

def add (now position : Nat) (edit : Edit) (cursorBefore cursorAfter : Nat) (o : Outline) :
    Outline :=
  match o.opened with
  | none => o
  | some s =>
    let op := o.newOperation now position edit cursorBefore cursorAfter
    { o with
      opened := some { s with operations := s.operations ++ [op] }
      nextOperationId := o.nextOperationId + 1 }

/-- Records an operation, unless recording is off. -/
def record (now position : Nat) (edit : Edit) (cursorBefore cursorAfter : Nat) (o : Outline) :
    Outline :=
  if o.enabled then (o.ensureOpen now).add now position edit cursorBefore cursorAfter else o

variable {σ : Type}

/-- Closes the open group and takes the last undoable group back; it can be redone then, unless the
target refuses one of the calls that are due. -/
def undo (target : ReplayTarget σ) (o : Outline) (s : σ) : Except HistoryError Nat × Outline × σ :=
  match o.close.undoable.getLast? with
  | none => (.error .noUndo, o.close, s)
  | some g =>
    match issueAll target (dueCalls Operation.revertCalls g.operations.reverse) s with
    | (.error e, s') => (.error e, o.close, s')
    | (.ok (), s') =>
      (.ok ((g.operations.head?.map Operation.cursorBefore).getD 0),
        { o.close with undoable := o.close.undoable.dropLast, redoable := g :: o.close.redoable }, s')

/-- Closes the open group and makes the first redoable group again; it can be undone then, unless the
target refuses one of the calls that are due. -/
def redo (target : ReplayTarget σ) (o : Outline) (s : σ) : Except HistoryError Nat × Outline × σ :=
  match o.close.redoable with
  | [] => (.error .noRedo, o.close, s)
  | g :: rest =>
    match issueAll target (dueCalls Operation.applyCalls g.operations) s with
    | (.error e, s') => (.error e, o.close, s')
    | (.ok (), s') =>
      (.ok ((g.operations.getLast?.map Operation.cursorAfter).getD 0),
        { o.close with undoable := o.close.undoable ++ [g], redoable := rest }, s')

def clear (o : Outline) : Outline := { o with undoable := [], redoable := [], opened := none }

def openOperations (o : Outline) : List Operation :=
  match o.opened with
  | none => []
  | some s => s.operations

/-! ## Closing and opening -/

variable {o : Outline}

@[simp] theorem opened_close (o : Outline) : o.close.opened = none := by
  unfold close
  split
  · next hopen => exact hopen
  · split <;> rfl

theorem openOperations_of_none (ho : o.opened = none) : o.openOperations = [] := by
  rw [openOperations, ho]

@[simp] theorem openOperations_close (o : Outline) : o.close.openOperations = [] :=
  openOperations_of_none o.opened_close

/-- Without recorded operations, closing changes no group. -/
theorem close_eq_of_nil (ho : o.openOperations = []) : o.close = { o with opened := none } := by
  obtain ⟨settings, undoable, redoable, opened⟩ := o
  cases opened with
  | none => rfl
  | some s => exact if_pos ho

@[simp] theorem close_close (o : Outline) : o.close.close = o.close := by
  have hopened := o.opened_close
  rw [close_eq_of_nil o.openOperations_close, ← hopened]

/-- Closing a group with operations keeps some of the undoable groups before it, and it. -/
theorem close_eq_of_ne_nil (ho : o.openOperations ≠ []) :
    ∃ id n, n ≤ o.undoable.length ∧ o.close =
      { o with
        undoable := List.drop n (o.undoable ++ [{ id, operations := o.openOperations }])
        redoable := []
        opened := none } := by
  unfold close
  unfold openOperations at ho ⊢
  cases hopen : o.opened with
  | none =>
    rw [hopen] at ho
    exact absurd rfl ho
  | some s =>
    rw [hopen] at ho
    obtain ⟨n, hdrop, hlt⟩ :=
      trim_eq_drop o.settings (o.undoable ++ [{ id := s.id, operations := s.operations }])
    have hn := hlt (by simp)
    rw [List.length_append, List.length_singleton] at hn
    refine ⟨s.id, n, Nat.lt_succ_iff.1 hn, ?_⟩
    simp only [if_neg (show s.operations ≠ [] from ho), hdrop]

theorem opened_ensureOpen (o : Outline) (now : Nat) : ∃ s, (o.ensureOpen now).opened = some s := by
  unfold ensureOpen
  split
  · exact ⟨_, rfl⟩
  · next s hopen =>
    split
    · exact ⟨_, rfl⟩
    · exact ⟨s, hopen⟩

@[simp] theorem nextOperationId_close (o : Outline) : o.close.nextOperationId = o.nextOperationId := by
  unfold close
  split
  · rfl
  · split <;> rfl

@[simp] theorem nextOperationId_ensureOpen (o : Outline) (now : Nat) :
    (o.ensureOpen now).nextOperationId = o.nextOperationId := by
  unfold ensureOpen
  split
  · rfl
  · split
    · exact o.nextOperationId_close
    · rfl

theorem nextOperationId_record (o : Outline) (hon : o.enabled = true) (now position : Nat)
    (edit : Edit) (cursorBefore cursorAfter : Nat) :
    (o.record now position edit cursorBefore cursorAfter).nextOperationId =
      o.nextOperationId + 1 := by
  obtain ⟨s, hs⟩ := o.opened_ensureOpen now
  rw [record, if_pos hon, add, hs]
  exact congrArg (· + 1) (o.nextOperationId_ensureOpen now)

theorem nextOperationId_undo {σ : Type} (target : ReplayTarget σ) (o : Outline) (s : σ) :
    (o.undo target s).2.1.nextOperationId = o.nextOperationId := by
  unfold undo
  split
  · exact o.nextOperationId_close
  · split <;> exact o.nextOperationId_close

theorem nextOperationId_redo {σ : Type} (target : ReplayTarget σ) (o : Outline) (s : σ) :
    (o.redo target s).2.1.nextOperationId = o.nextOperationId := by
  unfold redo
  split
  · exact o.nextOperationId_close
  · split <;> exact o.nextOperationId_close

@[simp] theorem undo_close {σ : Type} (target : ReplayTarget σ) (o : Outline) (s : σ) :
    o.close.undo target s = o.undo target s := by
  rw [undo, undo, close_close]

@[simp] theorem redo_close {σ : Type} (target : ReplayTarget σ) (o : Outline) (s : σ) :
    o.close.redo target s = o.redo target s := by
  rw [redo, redo, close_close]

/-- Whatever the target answers, an undo moves at most the boundary between the groups that closing
leaves. -/
theorem undo_moves {σ : Type} (target : ReplayTarget σ) (o : Outline) (s : σ) :
    ∃ us rs, us ++ rs = o.close.undoable ++ o.close.redoable ∧
      (o.undo target s).2.1 = { o.close with undoable := us, redoable := rs } := by
  unfold undo
  split
  · exact ⟨_, _, rfl, rfl⟩
  · next g hg =>
    split
    · exact ⟨_, _, rfl, rfl⟩
    · obtain ⟨rest, hrest⟩ := List.getLast?_eq_some_iff.1 hg
      refine ⟨_, _, ?_, rfl⟩
      rw [hrest, List.dropLast_concat, List.append_assoc]
      rfl

/-- Whatever the target answers, a redo moves at most the boundary between the groups that closing
leaves. -/
theorem redo_moves {σ : Type} (target : ReplayTarget σ) (o : Outline) (s : σ) :
    ∃ us rs, us ++ rs = o.close.undoable ++ o.close.redoable ∧
      (o.redo target s).2.1 = { o.close with undoable := us, redoable := rs } := by
  unfold redo
  split
  · exact ⟨_, _, rfl, rfl⟩
  · next g rest hg =>
    split
    · exact ⟨_, _, rfl, rfl⟩
    · refine ⟨_, _, ?_, rfl⟩
      rw [hg, List.append_assoc]
      rfl

end Outline

namespace History

variable {h : History}

def outline (h : History) : Outline where
  settings := h.settings
  undoable := h.groups.take h.applied
  redoable := h.groups.drop h.applied
  opened := h.opened
  enabled := h.enabled
  nextOperationId := h.nextOperationId
  nextSequenceId := h.nextSequenceId

theorem groups_eq (h : History) : h.groups = h.outline.undoable ++ h.outline.redoable :=
  (List.take_append_drop h.applied h.groups).symm

theorem length_undoable (hw : h.WellFormed) : h.outline.undoable.length = h.applied := by
  rw [outline, List.length_take, length_groups]
  exact Nat.min_eq_left hw.applied_le

/-- Something can be undone exactly when closing leaves an undoable group. -/
theorem canUndo_iff (hw : h.WellFormed) : h.canUndo = true ↔ h.outline.close.undoable ≠ [] := by
  rw [canUndo, Bool.or_eq_true, decide_eq_true_eq, Bool.not_eq_true', List.isEmpty_eq_false_iff]
  by_cases hops : h.openOperations = []
  · rw [Outline.close_eq_of_nil (o := h.outline) hops, ← length_undoable hw, List.length_pos_iff]
    exact ⟨fun hor => hor.resolve_right fun hne => hne hops, .inl⟩
  · obtain ⟨id, n, hn, heq⟩ := Outline.close_eq_of_ne_nil (o := h.outline) hops
    refine ⟨fun _ => ?_, fun _ => .inr hops⟩
    rw [heq, ne_eq, List.drop_eq_nil_iff, List.length_append, List.length_singleton]
    omega

/-- Something can be redone exactly when closing leaves a redoable group. -/
theorem canRedo_iff (h : History) : h.canRedo = true ↔ h.outline.close.redoable ≠ [] := by
  rw [canRedo, Bool.and_eq_true, decide_eq_true_eq, List.isEmpty_iff]
  by_cases hops : h.openOperations = []
  · rw [Outline.close_eq_of_nil (o := h.outline) hops, ← List.length_pos_iff]
    simp only [outline, List.length_drop, length_groups, Nat.sub_pos_iff_lt]
    exact ⟨And.right, fun hlt => ⟨hops, hlt⟩⟩
  · obtain ⟨id, n, -, heq⟩ := Outline.close_eq_of_ne_nil (o := h.outline) hops
    rw [heq]
    exact ⟨fun hand => absurd hand.1 hops, fun hne => absurd rfl hne⟩

/-! ## Committing -/

/-- Everything but the committed part is the same. -/
structure SameFrame (h h' : History) : Prop where
  settings : h'.settings = h.settings
  opened : h'.opened = h.opened
  phase : h'.phase = h.phase
  enabled : h'.enabled = h.enabled
  nextOperationId : h'.nextOperationId = h.nextOperationId
  nextSequenceId : h'.nextSequenceId = h.nextSequenceId

theorem sameFrame_dropRedoable (h : History) : h.SameFrame h.dropRedoable := by
  unfold dropRedoable
  split <;> exact ⟨rfl, rfl, rfl, rfl, rfl, rfl⟩

theorem sameFrame_evictOldest (h : History) : h.SameFrame h.evictOldest := by
  unfold evictOldest
  split <;> exact ⟨rfl, rfl, rfl, rfl, rfl, rfl⟩

theorem SameFrame.trans {h h' h'' : History} (h₁ : h.SameFrame h') (h₂ : h'.SameFrame h'') :
    h.SameFrame h'' :=
  ⟨h₂.settings.trans h₁.settings, h₂.opened.trans h₁.opened, h₂.phase.trans h₁.phase,
    h₂.enabled.trans h₁.enabled, h₂.nextOperationId.trans h₁.nextOperationId,
    h₂.nextSequenceId.trans h₁.nextSequenceId⟩

/-- Committing a sequence with operations, when none is open any more. -/
theorem outline_commit (hw : h.WellFormed) (s : OpenSequence) (now : Nat) (hs : s.operations ≠ []) :
    ((h.dropRedoable.append s now).evictOldest).WellFormed ∧
      ((h.dropRedoable.append s now).evictOldest).outline =
        { h.outline with
          undoable :=
            trim h.settings (h.outline.undoable ++ [{ id := s.id, operations := s.operations }])
          redoable := [] } := by
  obtain ⟨hw₁, hgroups₁, -⟩ := dropRedoable_spec hw
  obtain ⟨hw₂, hgroups₂, hall₂⟩ := append_spec hw₁ s now hs
  obtain ⟨hw₃, hgroups₃, hall₃⟩ := evictOldest_spec hw₂ hall₂
  have happend : h.dropRedoable.SameFrame (h.dropRedoable.append s now) :=
    ⟨rfl, rfl, rfl, rfl, rfl, rfl⟩
  have hframe := ((sameFrame_dropRedoable h).trans happend).trans
    (sameFrame_evictOldest (h.dropRedoable.append s now))
  have hsettings : (h.dropRedoable.append s now).settings = h.settings :=
    ((sameFrame_dropRedoable h).trans happend).settings
  have hlen := length_groups (h.dropRedoable.append s now).evictOldest
  refine ⟨hw₃, ?_⟩
  rw [outline, hframe.settings, hframe.opened, hframe.enabled, hframe.nextOperationId,
    hframe.nextSequenceId, hall₃, ← hlen, List.take_length, List.drop_length, hgroups₃, hgroups₂,
    hgroups₁, hsettings]
  rfl

/-- Closing commits as the outline says, or is refused the room for the operations and changes
nothing. -/
theorem closeSequence_cases (mem : Memory) (now : Nat) (hw : h.WellFormed) :
    (h.openOperations ≠ [] ∧ mem.commit h.openOperations.length = false ∧
      h.closeSequence mem now = (.error (.allocationFailed h.openOperations.length), h)) ∨
    ∃ h', h.closeSequence mem now = (.ok (), h') ∧ h'.WellFormed ∧ h'.outline = h.outline.close := by
  unfold closeSequence openOperations Outline.close
  cases hopen : h.opened with
  | none => exact .inr ⟨h, rfl, hw, by simp only [outline, hopen]⟩
  | some s =>
    have hclosed : WellFormed { h with opened := none, phase := .idle } :=
      ⟨hw.applied_le, hw.tiled, hw.heldBytes, rfl⟩
    simp only [outline, hopen, List.isEmpty_iff]
    by_cases hs : s.operations = []
    · rw [if_pos hs]
      exact .inr ⟨_, rfl, hclosed, by rw [if_pos hs]; rfl⟩
    · rw [if_neg hs]
      cases hmem : mem.commit s.operations.length with
      | true =>
        obtain ⟨hwf, houtline⟩ := outline_commit hclosed s now hs
        refine .inr ⟨_, rfl, hwf, ?_⟩
        rw [if_neg hs]
        exact houtline
      | false =>
        have hphase : h.phase = .recording := by rw [hw.phase, hopen]; rfl
        refine .inl ⟨hs, rfl, ?_⟩
        simp only [Bool.false_eq_true, if_false]
        rw [← hphase, ← hopen]

/-- What closing leaves is idle already. -/
theorem idle_of_closed {h' : History} {mem : Memory} {now : Nat} (hw : h.WellFormed)
    (heq : h.closeSequence mem now = (.ok (), h')) : { h' with phase := .idle } = h' := by
  rcases closeSequence_cases mem now hw with ⟨-, -, hrefused⟩ | ⟨h₁, hok, hw', houtline⟩
  · rw [heq] at hrefused
    cases hrefused
  · rw [heq] at hok
    cases hok
    have hopen : h'.opened = none := by
      rw [show h'.opened = h'.outline.opened from rfl, houtline, Outline.opened_close]
    have hphase : h'.phase = .idle := by
      rw [hw'.phase, hopen]
      rfl
    rw [← hphase]

/-! ## Recording -/

theorem startSequence_spec (hw : h.WellFormed) (now : Nat) :
    (h.startSequence now).WellFormed ∧ (h.startSequence now).outline = h.outline.start now :=
  ⟨⟨hw.applied_le, hw.tiled, hw.heldBytes, rfl⟩, rfl⟩

theorem beginSequence_cases (mem : Memory) (now : Nat) (hw : h.WellFormed) :
    (h.openOperations ≠ [] ∧ mem.commit h.openOperations.length = false ∧
      h.beginSequence mem now = (.error (.allocationFailed h.openOperations.length), h)) ∨
    ∃ h', h.beginSequence mem now = (.ok (), h') ∧ h'.WellFormed ∧
      h'.outline = h.outline.close.start now := by
  unfold beginSequence
  rcases closeSequence_cases mem now hw with ⟨hops, hmem, heq⟩ | ⟨h₁, heq, hw₁, houtline⟩
  · rw [heq]
    exact .inl ⟨hops, hmem, rfl⟩
  · obtain ⟨hw₂, hstart⟩ := startSequence_spec hw₁ now
    rw [heq]
    exact .inr ⟨_, rfl, hw₂, by rw [hstart, houtline]⟩

theorem ensureOpen_cases (mem : Memory) (now : Nat) (hw : h.WellFormed) :
    (mem.commit h.openOperations.length = false ∧
      h.ensureOpen mem now = (.error (.allocationFailed h.openOperations.length), h)) ∨
    ∃ h', h.ensureOpen mem now = (.ok (), h') ∧ h'.WellFormed ∧
      h'.outline = h.outline.ensureOpen now := by
  unfold ensureOpen Outline.ensureOpen
  cases hopen : h.opened with
  | none =>
    obtain ⟨hw₁, hstart⟩ := startSequence_spec hw now
    exact .inr ⟨_, rfl, hw₁, by simp only [outline, hopen] at hstart ⊢; exact hstart⟩
  | some s =>
    simp only [outline, hopen]
    split
    · rcases beginSequence_cases mem now hw with ⟨-, hmem, heq⟩ | ⟨h₁, heq, hw₁, hbegin⟩
      · exact .inl ⟨hmem, heq⟩
      · refine .inr ⟨h₁, heq, hw₁, ?_⟩
        simp only [outline, hopen] at hbegin
        exact hbegin
    · exact .inr ⟨h, rfl, hw, by rw [hopen]⟩

theorem addOperation_spec (mem : Memory) (now : Nat) (hw : h.WellFormed) (position : Nat)
    (edit : Edit) (cursorBefore cursorAfter : Nat) (hentry : mem.entry = true) :
    ∃ h', h.addOperation mem now position edit cursorBefore cursorAfter = (.ok (), h') ∧
      h'.WellFormed ∧ h'.outline = h.outline.add now position edit cursorBefore cursorAfter := by
  unfold addOperation Outline.add
  cases hopen : h.opened with
  | none => exact ⟨h, rfl, hw, by simp only [outline, hopen]⟩
  | some s =>
    simp only [hentry, if_true, outline, hopen]
    refine ⟨_, rfl, ⟨hw.applied_le, hw.tiled, hw.heldBytes, ?_⟩, rfl⟩
    rw [hw.phase, hopen]
    rfl

theorem recordingAllowed_eq (hw : h.WellFormed) : h.recordingAllowed = h.enabled := by
  have hphase : (h.phase != .replaying) = true := by
    rw [hw.phase]
    split <;> rfl
  rw [recordingAllowed, hphase, Bool.and_true]

/-- Recording does what the outline says, or is refused room; then the operation is not recorded,
and at most the open sequence was replaced by an empty one. -/
theorem record_cases (mem : Memory) (now : Nat) (hw : h.WellFormed) (position : Nat) (edit : Edit)
    (cursorBefore cursorAfter : Nat) :
    (∃ n h', h.record mem now position edit cursorBefore cursorAfter =
        (.error (.allocationFailed n), h') ∧ h'.WellFormed ∧
        (h'.outline = h.outline ∨ h'.outline = h.outline.ensureOpen now) ∧
        ¬ (mem.commit h.openOperations.length = true ∧ (∀ n, mem.recorded n = true) ∧
          mem.entry = true)) ∨
    ∃ h', h.record mem now position edit cursorBefore cursorAfter = (.ok (), h') ∧
      h'.WellFormed ∧
      h'.outline = h.outline.record now position edit cursorBefore cursorAfter := by
  unfold record Outline.record
  rw [recordingAllowed_eq hw]
  cases hon : h.enabled with
  | false => exact .inr ⟨h, rfl, hw, by simp [outline, hon]⟩
  | true =>
    have hon' : h.outline.enabled = true := hon
    simp only [Bool.not_true, Bool.false_eq_true, if_false, hon', if_true]
    cases hcopy : edit.refusedText? mem with
    | some size =>
      refine .inl ⟨size, h, rfl, hw, .inl rfl, fun hgrants => ?_⟩
      have hrefused := List.find?_some hcopy
      simp [hgrants.2.1] at hrefused
    | none =>
      simp only
      rcases ensureOpen_cases mem now hw with ⟨hmem, heq⟩ | ⟨h₁, heq, hw₁, hensure⟩
      · rw [heq]
        exact .inl ⟨_, h, rfl, hw, .inl rfl, fun hgrants => by simp [hmem] at hgrants⟩
      · rw [heq]
        by_cases hentry : mem.entry = true
        · obtain ⟨h₂, hadd, hw₂, houtline⟩ :=
            addOperation_spec mem now hw₁ position edit cursorBefore cursorAfter hentry
          exact .inr ⟨h₂, hadd, hw₂, by rw [houtline, hensure]⟩
        · simp only [addOperation]
          split
          · next hnone =>
            refine .inr ⟨h₁, rfl, hw₁, ?_⟩
            rw [← hensure, Outline.add, show h₁.outline.opened = none from hnone]
          · rw [if_neg hentry]
            exact .inl ⟨1, h₁, rfl, hw₁, .inr hensure, fun hgrants => hentry hgrants.2.2⟩

/-! ## Replaying -/

variable {σ : Type}

theorem getLast?_undoable (hw : h.WellFormed) :
    h.outline.undoable.getLast? = h.currentSequence?.map h.groupOf := by
  rw [outline, List.getLast?_take, currentSequence?]
  cases happlied : h.applied with
  | zero => rfl
  | succ n =>
    have hlt : n < h.groups.length := by
      have := hw.applied_le
      rw [length_groups]
      omega
    simp only [Nat.add_one_ne_zero, if_false, Nat.add_sub_cancel]
    rw [groups_getElem?, ← groups_getElem?, List.getElem?_eq_getElem hlt, Option.some_or,
      ← List.getElem?_eq_getElem hlt, groups_getElem?]

theorem head?_redoable (h : History) :
    h.outline.redoable.head? = h.nextSequence?.map h.groupOf := by
  rw [outline, List.head?_drop, groups_getElem?, nextSequence?]

/-- With nothing open, the boundary may be put anywhere. -/
theorem WellFormed.move (hw : h.WellFormed) (hopen : h.opened = none) {applied : Nat}
    (hle : applied ≤ h.sequences.length) : WellFormed { h with phase := .idle, applied } :=
  ⟨hle, hw.tiled, hw.heldBytes, by simp only [hopen]; rfl⟩

/-- Putting the boundary one back makes the last undoable group the first redoable one. -/
theorem outline_back (hw : h.WellFormed) {seq : Sequence} (hseq : h.currentSequence? = some seq) :
    { h with phase := .idle, applied := h.applied - 1 }.outline =
      { h.outline with
        undoable := h.outline.undoable.dropLast
        redoable := h.groupOf seq :: h.outline.redoable } := by
  rw [currentSequence?] at hseq
  split at hseq
  · cases hseq
  · next n happlied =>
    have hle : n + 1 ≤ h.groups.length := by
      have := hw.applied_le
      rw [length_groups]
      omega
    have hget : h.groups[n]? = some (h.groupOf seq) := by rw [groups_getElem?, hseq]; rfl
    have hdrop : h.groups.drop n = h.groupOf seq :: h.groups.drop (n + 1) := by
      rw [List.drop_eq_getElem_cons hle]
      rw [List.getElem?_eq_getElem hle] at hget
      rw [Option.some.inj hget]
    have htake : (h.groups.take (n + 1)).dropLast = h.groups.take n := by
      rw [List.dropLast_eq_take, List.length_take, Nat.min_eq_left hle, List.take_take,
        Nat.add_sub_cancel, Nat.min_eq_left (Nat.le_succ n)]
    simp only [outline, happlied, htake, ← hdrop]
    rfl

/-- Putting the boundary one on makes the first redoable group the last undoable one. -/
theorem outline_on {seq : Sequence} (hseq : h.nextSequence? = some seq) :
    { h with phase := .idle, applied := h.applied + 1 }.outline =
      { h.outline with
        undoable := h.outline.undoable ++ [h.groupOf seq]
        redoable := h.outline.redoable.tail } := by
  have hget : h.groups[h.applied]? = some (h.groupOf seq) := by
    rw [groups_getElem?, ← nextSequence?, hseq]
    rfl
  obtain ⟨hlt, hget⟩ := List.getElem?_eq_some_iff.1 hget
  simp only [outline, List.tail_drop, ← hget, List.take_append_getElem]
  rfl

theorem outline_undo (mem : Memory) (now : Nat) (hw : h.WellFormed) (target : ReplayTarget σ)
    (s : σ) :
    (h.openOperations ≠ [] ∧ mem.commit h.openOperations.length = false ∧
      h.undo mem now target s = (.error (.allocationFailed h.openOperations.length), h, s)) ∨
    ∃ answer h' s', h.undo mem now target s = (answer, h', s') ∧ h'.WellFormed ∧
      h.outline.undo target s = (answer, h'.outline, s') := by
  unfold undo Outline.undo
  rcases closeSequence_cases mem now hw with ⟨hops, hmem, heq⟩ | ⟨h₁, heq, hw₁, hclose⟩
  · rw [heq]
    exact .inl ⟨hops, hmem, rfl⟩
  · right
    have hopen : h₁.opened = none := by
      rw [show h₁.opened = h₁.outline.opened from rfl, hclose, Outline.opened_close]
    simp only [heq, ← hclose, getLast?_undoable hw₁, replay_revertCalls]
    cases hseq : h₁.currentSequence? with
    | none => exact ⟨_, _, _, rfl, hw₁, rfl⟩
    | some seq =>
      simp only [Option.map_some, groupOf]
      rcases issueAll target (dueCalls Operation.revertCalls (h₁.operationsOf seq).reverse) s with
        ⟨e | -, s'⟩
      · exact ⟨_, _, _, rfl, hw₁.move hopen hw₁.applied_le, rfl⟩
      · refine ⟨_, _, _, rfl, hw₁.move hopen (Nat.le_trans (Nat.sub_le _ _) hw₁.applied_le), ?_⟩
        rw [outline_back hw₁ hseq]
        rfl

theorem outline_redo (mem : Memory) (now : Nat) (hw : h.WellFormed) (target : ReplayTarget σ)
    (s : σ) :
    (h.openOperations ≠ [] ∧ mem.commit h.openOperations.length = false ∧
      h.redo mem now target s = (.error (.allocationFailed h.openOperations.length), h, s)) ∨
    ∃ answer h' s', h.redo mem now target s = (answer, h', s') ∧ h'.WellFormed ∧
      h.outline.redo target s = (answer, h'.outline, s') := by
  unfold redo Outline.redo
  rcases closeSequence_cases mem now hw with ⟨hops, hmem, heq⟩ | ⟨h₁, heq, hw₁, hclose⟩
  · rw [heq]
    exact .inl ⟨hops, hmem, rfl⟩
  · right
    have hopen : h₁.opened = none := by
      rw [show h₁.opened = h₁.outline.opened from rfl, hclose, Outline.opened_close]
    have hhead := head?_redoable h₁
    simp only [heq, ← hclose, replay_applyCalls]
    cases hseq : h₁.nextSequence? with
    | none =>
      rw [hseq, Option.map_none, List.head?_eq_none_iff] at hhead
      rw [hhead]
      exact ⟨_, _, _, rfl, hw₁, rfl⟩
    | some seq =>
      have hlt : h₁.applied < h₁.sequences.length := (List.getElem?_eq_some_iff.1 hseq).1
      rw [hseq, Option.map_some] at hhead
      obtain ⟨rest, hrest⟩ : ∃ rest, h₁.outline.redoable = h₁.groupOf seq :: rest :=
        List.head?_eq_some_iff.1 hhead
      simp only [hrest, groupOf]
      rcases issueAll target (dueCalls Operation.applyCalls (h₁.operationsOf seq)) s with ⟨e | -, s'⟩
      · exact ⟨_, _, _, rfl, hw₁.move hopen hw₁.applied_le, rfl⟩
      · refine ⟨_, _, _, rfl, hw₁.move hopen hlt, ?_⟩
        rw [outline_on hseq, hrest]
        rfl

/-! ## Ids -/

theorem nextOperationId_closeSequence (hw : h.WellFormed) (mem : Memory) (now : Nat) :
    (h.closeSequence mem now).2.nextOperationId = h.nextOperationId := by
  rcases closeSequence_cases mem now hw with ⟨-, -, heq⟩ | ⟨h', heq, -, houtline⟩
  · rw [heq]
  · rw [heq]
    exact (congrArg Outline.nextOperationId houtline).trans h.outline.nextOperationId_close

theorem nextOperationId_beginSequence (hw : h.WellFormed) (mem : Memory) (now : Nat) :
    (h.beginSequence mem now).2.nextOperationId = h.nextOperationId := by
  rcases beginSequence_cases mem now hw with ⟨-, -, heq⟩ | ⟨h', heq, -, houtline⟩
  · rw [heq]
  · rw [heq]
    exact (congrArg Outline.nextOperationId houtline).trans h.outline.nextOperationId_close

theorem nextOperationId_record (hw : h.WellFormed) (hon : h.enabled = true) {mem : Memory}
    {now position : Nat} {edit : Edit} {cursorBefore cursorAfter : Nat} {h' : History}
    (heq : h.record mem now position edit cursorBefore cursorAfter = (.ok (), h')) :
    h'.nextOperationId = h.nextOperationId + 1 := by
  rcases record_cases mem now hw position edit cursorBefore cursorAfter with
    ⟨n, h₁, heq₁, -⟩ | ⟨h₁, heq₁, -, houtline⟩
  · rw [heq] at heq₁
    cases heq₁
  · rw [heq] at heq₁
    cases heq₁
    have hone := h.outline.nextOperationId_record hon now position edit cursorBefore cursorAfter
    rw [← houtline] at hone
    exact hone

theorem nextOperationId_undo (hw : h.WellFormed) (mem : Memory) (now : Nat)
    (target : ReplayTarget σ) (s : σ) :
    (h.undo mem now target s).2.1.nextOperationId = h.nextOperationId := by
  rcases outline_undo mem now hw target s with ⟨-, -, heq⟩ | ⟨answer, h', s', heq, -, hundo⟩
  · rw [heq]
  · have hsame := h.outline.nextOperationId_undo target s
    rw [hundo] at hsame
    rw [heq]
    exact hsame

theorem nextOperationId_redo (hw : h.WellFormed) (mem : Memory) (now : Nat)
    (target : ReplayTarget σ) (s : σ) :
    (h.redo mem now target s).2.1.nextOperationId = h.nextOperationId := by
  rcases outline_redo mem now hw target s with ⟨-, -, heq⟩ | ⟨answer, h', s', heq, -, hredo⟩
  · rw [heq]
  · have hsame := h.outline.nextOperationId_redo target s
    rw [hredo] at hsame
    rw [heq]
    exact hsame

end History

end TextStore
