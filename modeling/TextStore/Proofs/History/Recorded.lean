import TextStore.Proofs.History.Numbering

/-!
# What a record adds to a history

* `allOperations` : the operations of a history, those of its open sequence last;
* `joined` : the sequence that an operation recorded at some time joins;
* `Appends`, `AddsNone` : one operation is put behind the others, or none is. Either way the others
  may be fewer than before, because a sequence whose window has passed is committed first;
* `record_appends`, `record_off`, `record_addsNone` : a record that is accepted puts its operation
  there, one made while recording is off changes nothing, and a refused one adds none.
-/

namespace TextStore

theorem Outline.nextSequenceId_close (o : Outline) : o.close.nextSequenceId = o.nextSequenceId := by
  unfold Outline.close
  split
  · rfl
  · split <;> rfl

namespace History

variable {h h' : History} {mem : Memory} {now position : Nat} {edit : Edit}
  {cursorBefore cursorAfter : Nat}

def allOperations (h : History) : List Operation := h.operations ++ h.openOperations

/-- The sequence that an operation recorded at `now` joins: the open one while its window lasts, else
a new one. -/
def joined (h : History) (now : Nat) : OpenSequence :=
  match h.opened with
  | none => { id := h.nextSequenceId, startedAt := now }
  | some s =>
    if h.settings.windowMs < now - s.startedAt then { id := h.nextSequenceId, startedAt := now }
    else s

/-- `op` was recorded at `now`. -/
structure Appends (h : History) (now : Nat) (op : Operation) (h' : History) : Prop where
  /-- It is the last one of the sequence that it joins. -/
  opened : h'.opened = some { h.joined now with operations := (h.joined now).operations ++ [op] }
  others : ∃ kept, kept.Sublist h.allOperations ∧ h'.allOperations = kept ++ [op]
  id : op.id = h.nextOperationId
  nextOperationId : h'.nextOperationId = h.nextOperationId + 1

structure AddsNone (h h' : History) : Prop where
  others : h'.allOperations.Sublist h.allOperations
  nextOperationId : h'.nextOperationId = h.nextOperationId

theorem AddsNone.refl (h : History) : h.AddsNone h := ⟨List.Sublist.refl _, rfl⟩

theorem AddsNone.of_outline (hw : h.WellFormed) (hw' : h'.WellFormed)
    (hops : h'.outline.operations.Sublist h.outline.operations)
    (hnext : h'.outline.nextOperationId = h.outline.nextOperationId) : h.AddsNone h' := by
  rw [operations_outline hw, operations_outline hw'] at hops
  exact ⟨hops, hnext⟩

theorem opened_ensureOpen_outline (h : History) (now : Nat) :
    (h.outline.ensureOpen now).opened = some (h.joined now) := by
  unfold Outline.ensureOpen joined
  rw [show h.outline.opened = h.opened from rfl]
  cases hopen : h.opened with
  | none => rfl
  | some s =>
    simp only [show h.outline.settings = h.settings from rfl]
    split
    · rw [Outline.start, Outline.nextSequenceId_close]
      rfl
    · exact hopen

theorem record_appends (hw : h.WellFormed) (hon : h.enabled = true)
    (hrecord : h.record mem now position edit cursorBefore cursorAfter = (.ok (), h')) :
    h.Appends now
      { id := h.nextOperationId, position, edit, cursorBefore, cursorAfter, recordedAt := now }
      h' := by
  rcases record_cases mem now hw position edit cursorBefore cursorAfter with
    ⟨n, h₁, hrefused, -⟩ | ⟨h₁, hok, hw', houtline⟩
  · rw [hrecord] at hrefused
    cases hrefused
  rw [hrecord] at hok
  cases hok
  have hopened := h.opened_ensureOpen_outline now
  have hops := Outline.operations_add hopened now position edit cursorBefore cursorAfter
  have hkept := h.outline.operations_ensureOpen now
  have hnew : (h.outline.ensureOpen now).newOperation now position edit cursorBefore cursorAfter =
      { id := h.nextOperationId, position, edit, cursorBefore, cursorAfter, recordedAt := now } := by
    rw [Outline.newOperation, Outline.nextOperationId_ensureOpen]
    rfl
  rw [Outline.record, if_pos (show h.outline.enabled = true from hon)] at houtline
  rw [← houtline, operations_outline hw', hnew] at hops
  rw [operations_outline hw] at hkept
  refine ⟨?_, ⟨_, hkept, hops⟩, rfl, ?_⟩
  · rw [show h'.opened = h'.outline.opened from rfl, houtline]
    simp only [Outline.add, hopened, hnew]
  · rw [show h'.nextOperationId = h'.outline.nextOperationId from rfl, houtline]
    simp only [Outline.add, hopened, Outline.nextOperationId_ensureOpen]
    rfl

/-- While recording is off every record is accepted and nothing comes of it. -/
theorem record_off (hoff : h.enabled = false) (mem : Memory) (now position : Nat) (edit : Edit)
    (cursorBefore cursorAfter : Nat) :
    h.record mem now position edit cursorBefore cursorAfter = (.ok (), h) := by
  rw [record, recordingAllowed, hoff]
  rfl

theorem record_addsNone (hw : h.WellFormed) {e : HistoryError}
    (hrecord : h.record mem now position edit cursorBefore cursorAfter = (.error e, h')) :
    h.AddsNone h' := by
  rcases record_cases mem now hw position edit cursorBefore cursorAfter with
    ⟨n, h₁, hrefused, hw', houtline, -⟩ | ⟨h₁, hok, -⟩
  · rw [hrecord] at hrefused
    cases hrefused
    rcases houtline with hsame | hopened
    · exact .of_outline hw hw' (hsame ▸ List.Sublist.refl _) (congrArg _ hsame)
    · refine .of_outline hw hw' (hopened ▸ h.outline.operations_ensureOpen now) ?_
      rw [hopened, h.outline.nextOperationId_ensureOpen]
  · rw [hrecord] at hok
    cases hok

end History

end TextStore
