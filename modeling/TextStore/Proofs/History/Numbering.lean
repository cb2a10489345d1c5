import Mathlib.Data.List.Flatten
import TextStore.Proofs.History.Checked

/-!
# What a run of history operations preserves

* `Numbered ids next` : the ids increase and stay below the next one to be given;
* `Renumbers ids next ids' next'` : some of the old ids are left, followed by some of those that were
  given in between, so no id is given twice;
* `Outline.Grows` : the operations and the sequences of an outline are renumbered so. Every
  operation of an outline does this (`grows_act`), whatever it drops and wherever it puts the
  boundary;
* `History.Sound` : the boundary, ranges, byte count and phase fit each other, both kinds of ids are
  numbered, and no operation on the history makes an access out of range;
* `run_sound` : a history is sound after every run, and ids keep going up across a clear;
* `Reachable` : what any operations lead to from a new history. It is well formed.
-/

namespace TextStore

/-- The ids increase, and the next one is above all of them. -/
structure Numbered (ids : List Nat) (next : Nat) : Prop where
  increasing : ids.Pairwise (· < ·)
  below : ∀ id ∈ ids, id < next

/-- While the next id went from `next` to `next'`, ids were dropped and given ones put behind. -/
structure Renumbers (ids : List Nat) (next : Nat) (ids' : List Nat) (next' : Nat) : Prop where
  next_le : next ≤ next'
  sublist : ids'.Sublist (ids ++ List.range' next (next' - next))

namespace Renumbers

variable {ids ids' ids'' : List Nat} {next next' next'' : Nat}

theorem of_sublist (h : ids'.Sublist ids) : Renumbers ids next ids' next :=
  ⟨Nat.le_refl _, h.trans (List.sublist_append_left _ _)⟩

theorem give (h : ids'.Sublist ids) : Renumbers ids next (ids' ++ [next]) (next + 1) := by
  refine ⟨Nat.le_succ _, ?_⟩
  rw [Nat.add_sub_cancel_left]
  exact h.append (List.Sublist.refl _)

theorem trans (h : Renumbers ids next ids' next') (h' : Renumbers ids' next' ids'' next'') :
    Renumbers ids next ids'' next'' := by
  refine ⟨Nat.le_trans h.next_le h'.next_le, ?_⟩
  have hranges : List.range' next (next' - next) ++ List.range' next' (next'' - next') =
      List.range' next (next'' - next) := by
    have h₁ := h.next_le
    have h₂ := h'.next_le
    rw [show next'' - next = next' - next + (next'' - next') by omega, List.range'_append_1.symm,
      Nat.add_sub_cancel' h₁]
  rw [← hranges, ← List.append_assoc]
  exact h'.sublist.trans (h.sublist.append (List.Sublist.refl _))

theorem numbered (h : Renumbers ids next ids' next') (hids : Numbered ids next) :
    Numbered ids' next' := by
  have hle := h.next_le
  refine ⟨List.Pairwise.sublist h.sublist ?_, ?_⟩
  · refine List.pairwise_append.2 ⟨hids.increasing, List.pairwise_lt_range', ?_⟩
    intro old hold new hnew
    have hlow := hids.below old hold
    have hhigh := (List.mem_range'_1.1 hnew).1
    omega
  · intro id hid
    rcases List.mem_append.1 (h.sublist.subset hid) with hold | hnew
    · have := hids.below id hold
      omega
    · have := (List.mem_range'_1.1 hnew).2
      omega

end Renumbers

/-! ## Ids of an outline -/

namespace Outline

variable {o o' o'' : Outline}

/-- All operations, those of the open group last. -/
def operations (o : Outline) : List Operation :=
  (o.undoable ++ o.redoable).flatMap Group.operations ++ o.openOperations

/-- Closing commits the open operations or drops some, and adds none. -/
theorem operations_close (o : Outline) : o.close.operations.Sublist o.operations := by
  by_cases ho : o.openOperations = []
  · rw [close_eq_of_nil ho]
    exact (List.Sublist.refl _).append (List.nil_sublist _)
  · unfold close
    cases hopen : o.opened with
    | none => exact absurd (openOperations_of_none hopen) ho
    | some s =>
      have hs : s.operations ≠ [] := by rwa [openOperations, hopen] at ho
      obtain ⟨n, hdrop, -⟩ :=
        trim_eq_drop o.settings (o.undoable ++ [{ id := s.id, operations := s.operations }])
      -- the open group stands behind the redoable ones, which it throws away
      simp only [hdrop, if_neg hs, operations, openOperations, hopen, List.append_nil]
      refine (List.Sublist.flatMap (List.drop_sublist n _) _).trans ?_
      simp only [List.flatMap_append, List.flatMap_singleton]
      exact (List.sublist_append_left _ _).append (List.Sublist.refl _)

theorem operations_start (o : Outline) (now : Nat) :
    (o.start now).operations.Sublist o.operations :=
  (List.Sublist.refl _).append (List.nil_sublist _)

theorem operations_ensureOpen (o : Outline) (now : Nat) :
    (o.ensureOpen now).operations.Sublist o.operations := by
  unfold ensureOpen
  split
  · exact o.operations_start now
  · split
    · exact (o.close.operations_start now).trans o.operations_close
    · exact List.Sublist.refl _

theorem operations_add {s : OpenSequence} (hopen : o.opened = some s) (now position : Nat)
    (edit : Edit) (cursorBefore cursorAfter : Nat) :
    (o.add now position edit cursorBefore cursorAfter).operations =
      o.operations ++ [o.newOperation now position edit cursorBefore cursorAfter] := by
  simp only [add, operations, openOperations, hopen, List.append_assoc]

def operationIds (o : Outline) : List Nat :=
  ((o.undoable ++ o.redoable).flatMap Group.operations ++ o.openOperations).map Operation.id

def sequenceIds (o : Outline) : List Nat :=
  (o.undoable ++ o.redoable).map Group.id ++ (o.opened.map OpenSequence.id).toList

/-- Operations and groups are dropped, and new ones follow behind. -/
structure Grows (o o' : Outline) : Prop where
  operations : Renumbers o.operationIds o.nextOperationId o'.operationIds o'.nextOperationId
  sequences : Renumbers o.sequenceIds o.nextSequenceId o'.sequenceIds o'.nextSequenceId

theorem Grows.refl (o : Outline) : o.Grows o :=
  ⟨.of_sublist (List.Sublist.refl _), .of_sublist (List.Sublist.refl _)⟩

theorem Grows.trans (h : o.Grows o') (h' : o'.Grows o'') : o.Grows o'' :=
  ⟨h.operations.trans h'.operations, h.sequences.trans h'.sequences⟩

/-- The same groups, wherever the boundary between them is. -/
theorem Grows.of_groups (hgroups : o'.undoable ++ o'.redoable = o.undoable ++ o.redoable)
    (hopened : o'.opened = o.opened) (hop : o'.nextOperationId = o.nextOperationId)
    (hseq : o'.nextSequenceId = o.nextSequenceId) : o.Grows o' := by
  constructor
  · rw [operationIds, operationIds, hgroups, openOperations, openOperations, hopened, hop]
    exact .of_sublist (List.Sublist.refl _)
  · rw [sequenceIds, sequenceIds, hgroups, hopened, hseq]
    exact .of_sublist (List.Sublist.refl _)

theorem grows_clear (o : Outline) : o.Grows o.clear :=
  ⟨.of_sublist (List.nil_sublist _), .of_sublist (List.nil_sublist _)⟩

theorem grows_close (o : Outline) : o.Grows o.close := by
  refine ⟨o.nextOperationId_close.symm ▸ .of_sublist (o.operations_close.map _), ?_⟩
  unfold close
  cases hopen : o.opened with
  | none => exact .of_sublist (List.Sublist.refl _)
  | some s =>
    obtain ⟨n, hdrop, -⟩ :=
      trim_eq_drop o.settings (o.undoable ++ [{ id := s.id, operations := s.operations }])
    simp only [hdrop]
    by_cases hs : s.operations = []
    · rw [if_pos hs]
      exact .of_sublist ((List.Sublist.refl _).append (List.nil_sublist _))
    · rw [if_neg hs]
      refine .of_sublist ?_
      simp only [sequenceIds, hopen, List.append_nil, Option.map_none, Option.toList_none,
        Option.map_some, Option.toList_some]
      refine ((List.drop_sublist n _).map _).trans ?_
      simp only [List.map_append, List.map_cons, List.map_nil]
      exact (List.sublist_append_left _ _).append (List.Sublist.refl _)

theorem grows_start (o : Outline) (now : Nat) : o.Grows (o.start now) :=
  ⟨.of_sublist ((o.operations_start now).map _), .give (List.sublist_append_left _ _)⟩

theorem grows_ensureOpen (o : Outline) (now : Nat) : o.Grows (o.ensureOpen now) := by
  unfold ensureOpen
  split
  · exact o.grows_start now
  · split
    · exact o.grows_close.trans (o.close.grows_start now)
    · exact .refl o

theorem grows_add (o : Outline) (now position : Nat) (edit : Edit) (cursorBefore cursorAfter : Nat) :
    o.Grows (o.add now position edit cursorBefore cursorAfter) := by
  cases hopen : o.opened with
  | none =>
    rw [add, hopen]
    exact .refl o
  | some s =>
    constructor
    · have hops := congrArg (List.map Operation.id)
        (o.operations_add hopen now position edit cursorBefore cursorAfter)
      rw [List.map_append] at hops
      rw [show (o.add _ _ _ _ _).operationIds = _ from hops, add, hopen]
      exact .give (List.Sublist.refl _)
    · simp only [add, sequenceIds, hopen]
      exact .of_sublist (List.Sublist.refl _)

theorem grows_record (o : Outline) (now position : Nat) (edit : Edit)
    (cursorBefore cursorAfter : Nat) :
    o.Grows (o.record now position edit cursorBefore cursorAfter) := by
  unfold record
  split
  · exact (o.grows_ensureOpen now).trans (grows_add _ _ _ _ _ _)
  · exact .refl o

variable {σ : Type}

theorem grows_undo (target : ReplayTarget σ) (o : Outline) (s : σ) :
    o.Grows (o.undo target s).2.1 := by
  obtain ⟨us, rs, hgroups, heq⟩ := o.undo_moves target s
  rw [heq]
  exact o.grows_close.trans (.of_groups hgroups rfl rfl rfl)

theorem grows_redo (target : ReplayTarget σ) (o : Outline) (s : σ) :
    o.Grows (o.redo target s).2.1 := by
  obtain ⟨us, rs, hgroups, heq⟩ := o.redo_moves target s
  rw [heq]
  exact o.grows_close.trans (.of_groups hgroups rfl rfl rfl)

theorem grows_act (o : Outline) (step : HistoryStep) : o.Grows (step.act o).2 := by
  cases step with
  | beginSequence mem now => exact o.grows_close.trans (o.close.grows_start now)
  | closeSequence mem now => exact o.grows_close
  | record mem now position edit cursorBefore cursorAfter => exact o.grows_record _ _ _ _ _
  | undo mem now target s => exact grows_undo target o s
  | redo mem now target s => exact grows_redo target o s
  | clear => exact o.grows_clear
  | setEnabled on => exact .of_groups rfl rfl rfl rfl

end Outline

namespace History

variable {h : History}

/-! ## Ids of a history -/

/-- The ids of all operations, those of the open sequence last. -/
def operationIds (h : History) : List Nat := (h.operations ++ h.openOperations).map Operation.id

/-- The ids of all sequences, that of the open one last. -/
def sequenceIds (h : History) : List Nat :=
  h.sequences.map Sequence.id ++ (h.opened.map OpenSequence.id).toList

/-- Tiled sequences own, one after the other, the operations of the range that they tile. -/
theorem flatMap_groupOf {start stop : Nat} {l : List Sequence} (ht : Tiled start l stop) :
    (l.map h.groupOf).flatMap Group.operations = (h.operations.drop start).take (stop - start) := by
  induction l generalizing start with
  | nil =>
    obtain rfl : start = stop := ht
    simp
  | cons seq rest ih =>
    obtain ⟨hstart, hlt, hrest⟩ := ht
    have hle := hrest.le
    simp only [List.map_cons, List.flatMap_cons, ih hrest, groupOf, operationsOf, hstart]
    rw [show stop - start = seq.stop - start + (stop - seq.stop) by omega, List.take_add,
      List.drop_drop, Nat.add_sub_cancel' (Nat.le_of_lt hlt)]

theorem operations_outline (hw : h.WellFormed) :
    h.outline.operations = h.operations ++ h.openOperations := by
  rw [Outline.operations, ← groups_eq, groups, flatMap_groupOf hw.tiled, List.drop_zero,
    Nat.sub_zero, List.take_length]
  rfl

theorem operationIds_outline (hw : h.WellFormed) : h.outline.operationIds = h.operationIds :=
  congrArg (List.map Operation.id) (operations_outline hw)

theorem sequenceIds_outline (h : History) : h.outline.sequenceIds = h.sequenceIds := by
  rw [Outline.sequenceIds, ← groups_eq, groups, List.map_map]
  rfl

/-! ## Steps and runs -/

/-- `h'` is well formed, and its ids follow those of `h`. -/
structure Precedes (h h' : History) : Prop where
  wellFormed : h'.WellFormed
  grows : h.outline.Grows h'.outline

theorem Precedes.refl (hw : h.WellFormed) : h.Precedes h := ⟨hw, .refl _⟩

theorem precedes_perform (hw : h.WellFormed) (step : HistoryStep) :
    h.Precedes (step.perform h).2 := by
  cases leaves_perform hw step with
  | made hw' houtline => exact ⟨hw', houtline ▸ h.outline.grows_act step⟩
  | same hw' houtline => exact ⟨hw', houtline ▸ .refl _⟩
  | opened hw' now houtline => exact ⟨hw', houtline ▸ h.outline.grows_ensureOpen now⟩

theorem precedes_run (hw : h.WellFormed) (steps : List HistoryStep) :
    h.Precedes (h.run steps) := by
  induction steps generalizing h with
  | nil => exact .refl hw
  | cons step rest ih =>
    have hstep := precedes_perform hw step
    have hrest := ih hstep.wellFormed
    exact ⟨hrest.wellFormed, hstep.grows.trans hrest.grows⟩

theorem run_append (h : History) (steps later : List HistoryStep) :
    h.run (steps ++ later) = (h.run steps).run later := by
  induction steps generalizing h with
  | nil => rfl
  | cons step rest ih => exact ih _

/-! ## Sound histories -/

structure Sound (h : History) : Prop where
  /-- The boundary, the ranges, the byte count and the phase fit each other. -/
  wellFormed : h.WellFormed
  operationIds : Numbered h.operationIds h.nextOperationId
  sequenceIds : Numbered h.sequenceIds h.nextSequenceId
  /-- No operation subtracts below zero or leaves the range of a list. -/
  step : ∀ step : HistoryStep, step.perform? h = some (step.perform h)
  redoCount : h.redoCount? = some h.redoCount
  current : h.current? = some h.currentSequence?
  operationsOf : ∀ seq ∈ h.sequences, h.operationsOf? seq = some (h.operationsOf seq)

theorem Precedes.renumbers {h' : History} (hh' : h.Precedes h') (hw : h.WellFormed) :
    Renumbers h.operationIds h.nextOperationId h'.operationIds h'.nextOperationId ∧
      Renumbers h.sequenceIds h.nextSequenceId h'.sequenceIds h'.nextSequenceId := by
  have hgrows := hh'.grows
  rw [← operationIds_outline hw, ← operationIds_outline hh'.wellFormed, ← sequenceIds_outline h,
    ← sequenceIds_outline h']
  exact ⟨hgrows.operations, hgrows.sequences⟩

theorem Precedes.sound {settings : HistorySettings} (hh : Precedes { settings } h) : h.Sound := by
  have hnone : Numbered [] 1 := ⟨List.Pairwise.nil, fun _ hid => by cases hid⟩
  obtain ⟨hops, hseqs⟩ := hh.renumbers (wellFormed_new settings)
  exact
    { wellFormed := hh.wellFormed
      operationIds := hops.numbered hnone
      sequenceIds := hseqs.numbered hnone
      step := HistoryStep.perform?_eq hh.wellFormed
      redoCount := redoCount?_eq hh.wellFormed
      current := current?_eq hh.wellFormed
      operationsOf := fun _ hseq => operationsOf?_eq hh.wellFormed hseq }

/-- Whatever is done to a new history, refused or not, leaves it sound; and whatever is done then,
clearing it included, gives no id a second time. -/
theorem run_sound (settings : HistorySettings) (steps later : List HistoryStep) :
    (run { settings } steps).Sound ∧
      Renumbers (run { settings } steps).operationIds (run { settings } steps).nextOperationId
        (run { settings } (steps ++ later)).operationIds
        (run { settings } (steps ++ later)).nextOperationId ∧
      Renumbers (run { settings } steps).sequenceIds (run { settings } steps).nextSequenceId
        (run { settings } (steps ++ later)).sequenceIds
        (run { settings } (steps ++ later)).nextSequenceId := by
  have hsteps := precedes_run (wellFormed_new settings) steps
  have hlater := precedes_run hsteps.wellFormed later
  rw [run_append]
  exact ⟨hsteps.sound, hlater.renumbers hsteps.wellFormed⟩

/-! ## Reachable histories -/

def Reachable (h : History) : Prop :=
  ∃ settings steps, h = History.run { settings } steps

theorem Reachable.wellFormed (hh : h.Reachable) : h.WellFormed := by
  obtain ⟨settings, steps, rfl⟩ := hh
  exact (precedes_run (wellFormed_new settings) steps).wellFormed

end History

end TextStore
