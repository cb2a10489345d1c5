import TextStore.Proofs.Script.Replay
import TextStore.Proofs.Store.Sizes

/-!
# Undo and redo without memory

* `held_invariant` : a buffer of a session has held every text along its history;
* `Replayed` : what any number of undos and redos lead to, in any order;
* `Contained` : what is recorded stays within the longest text that the buffer has held, which stays
  within its region, and replaying it changes neither;
* `replays_contained` : so it is wherever recorded edits or scripts lead to.
-/

namespace TextStore

theorem held_invariant : BufferInvariant Held where
  new _ _ _ settings hb := .new (GapBuffer.sized_withCapacity hb) settings
  beginSequence b h mem now := by
    rintro ⟨T, hs⟩
    exact hs.beginSequence mem now
  closeSequence b h mem now := by
    rintro ⟨T, hs⟩
    exact hs.closeSequence mem now
  undo _ mem now hs := hs.undo mem now
  redo _ mem now hs := hs.redo mem now
  setReadOnly b h on := by
    rintro ⟨T, hs⟩
    exact ⟨T, hs.withBuffer hs.buffer rfl (Nat.le_refl _)⟩
  edit _ mem now cursor start stop text hs := hs.edit mem now cursor start stop text

/-! ## Replays in any order -/

/-- Undos and redos lead from one pair of a history and a buffer to another. -/
inductive Replayed (s : History × GapBuffer) : History × GapBuffer → Prop
  | start : Replayed s s
  | undo {s' : History × GapBuffer} (hs' : Replayed s s') (mem : Memory) (now : Nat) :
      Replayed s (undoOn mem now s').2
  | redo {s' : History × GapBuffer} (hs' : Replayed s s') (mem : Memory) (now : Nat) :
      Replayed s (redoOn mem now s').2

theorem Replayed.held {s s' : History × GapBuffer} (h : Replayed s s') (hs : Held s.2 s.1) :
    Held s'.2 s'.1 ∧ s'.2.sizes = s.2.sizes := by
  induction h with
  | start => exact ⟨hs, rfl⟩
  | undo _ mem now ih => exact ⟨ih.1.undo mem now, (ih.1.sizes_undo mem now).trans ih.2⟩
  | redo _ mem now ih => exact ⟨ih.1.redo mem now, (ih.1.sizes_redo mem now).trans ih.2⟩

theorem readOnly_ne_allocationFailed (n : Nat) :
    BufferError.readOnly.message ≠ (BufferError.allocationFailed n).message := by
  intro heq
  have hlen : "buffer is read-only".length =
      ("failed to allocate " ++ toString n ++ " bytes").length := congrArg String.length heq
  have hleft : "buffer is read-only".length = 19 := by decide
  have hright : "failed to allocate ".length = 19 := by decide
  have hend : " bytes".length = 6 := by decide
  rw [String.length_append, String.length_append] at hlen
  omega

theorem UndoResult.reason {o o' : Outline} {T : Nat → List UInt8} {b b' : GapBuffer} {id : Nat}
    {reason : String} (hr : UndoResult o T b (.error (.invalidState id reason), o', b')) :
    reason = BufferError.readOnly.message := by
  cases hr
  rfl

theorem RedoResult.reason {o o' : Outline} {T : Nat → List UInt8} {b b' : GapBuffer} {id : Nat}
    {reason : String} (hr : RedoResult o T b (.error (.invalidState id reason), o', b')) :
    reason = BufferError.readOnly.message := by
  cases hr
  rfl

theorem Held.reason {s : History × GapBuffer} (hs : Held s.2 s.1) {mem : Memory} {now id : Nat}
    {reason : String} (heq : (undoOn mem now s).1 = .error (.invalidState id reason) ∨
      (redoOn mem now s).1 = .error (.invalidState id reason)) :
    reason = BufferError.readOnly.message := by
  obtain ⟨T, hs⟩ := hs
  rcases heq with heq | heq
  · rcases hs.undo_cases mem now with ⟨-, -, hno⟩ | ⟨T', answer, h', b', hundo, -, hresult, -⟩
    · rw [undoOn, hno] at heq
      cases heq
    · rw [undoOn, hundo] at heq
      cases heq
      exact hresult.reason
  · rcases hs.redo_cases mem now with ⟨-, -, hno⟩ | ⟨T', answer, h', b', hredo, -, hresult, -⟩
    · rw [redoOn, hno] at heq
      cases heq
    · rw [redoOn, hredo] at heq
      cases heq
      exact hresult.reason

/-! ## Contained histories -/

/-- What is recorded fits in the buffer, and no replay of it needs memory. -/
structure Contained (b : GapBuffer) (h : History) : Prop where
  operations : ∀ op ∈ h.operations ++ h.openOperations,
    op.position + op.edit.insertedText.length ≤ b.counters.maxLength ∧
      op.position + op.edit.deletedText.length ≤ b.counters.maxLength
  maxLength_le : b.counters.maxLength ≤ b.capacity
  /-- The region and the marks stay as they are, however many sequences are replayed. -/
  sizes : ∀ h' b', Replayed (h, b) (h', b') → b'.sizes = b.sizes
  /-- On the way, the buffer refuses nothing unless it is read-only. -/
  reason : ∀ h' b', Replayed (h, b) (h', b') → ∀ mem now id reason,
    (undoOn mem now (h', b')).1 = .error (.invalidState id reason) ∨
      (redoOn mem now (h', b')).1 = .error (.invalidState id reason) →
    reason = BufferError.readOnly.message ∧ ∀ n, reason ≠ (BufferError.allocationFailed n).message

theorem Held.contained {b : GapBuffer} {h : History} (hs : Held b h) : Contained b h where
  operations op hop := by
    obtain ⟨T, hs⟩ := hs
    obtain ⟨t, t', hknown⟩ := hs.of_mem hop
    exact hknown.1.within
  maxLength_le := hs.sized.maxLength_le
  sizes h' b' hreplayed := (hreplayed.held hs).2
  reason h' b' hreplayed mem now id reason heq := by
    obtain rfl := (hreplayed.held hs).1.reason heq
    exact ⟨rfl, readOnly_ne_allocationFailed⟩

/-- A buffer with a first text and recorded edits, and every buffer of a session that scripts have
led to, holds its history: the recorded texts fit in the longest text so far and thereby in the
region, and undoing and redoing leaves both as they are. -/
theorem replays_contained :
    (∀ (start : GapStart) (mem : Memory) (b : GapBuffer) (settings : HistorySettings) (d : Desk),
      start.make mem = .ok b → Desk.Run { buffer := b, history := { settings } } d →
        Contained d.buffer d.history) ∧
    ∀ (settings : Settings) (now : Nat) (runs : List (Memory × Script)) (mem : Memory)
      (steps : List Step) (answer : Except Failure Unit) (s : Session),
      Script.runFrom mem 1 steps
        { Script.runAll runs { store := { settings }, now } with cursor := 0 } = (answer, s) →
      ∀ sb ∈ s.store.buffers, Contained sb.buffer sb.history := by
  refine ⟨?_, ?_⟩
  · intro start mem b settings d hb hrun
    have hnew : Held b { settings } := .new (GapBuffer.sized_make hb) settings
    exact (hnew.run hrun).contained
  · intro settings now runs mem steps answer s hsteps sb hsb
    have hnew : Store.Each Held { settings } := fun _ hsb => by cases hsb
    have hruns := held_invariant.runAll (s := { store := { settings }, now }) hnew runs
    have hreached := held_invariant.runFrom
      (s := { Script.runAll runs { store := { settings }, now } with cursor := 0 }) hruns mem 1 steps
    rw [hsteps] at hreached
    exact (hreached sb hsb).contained

def roomForTwo : GapBuffer where
  region := .zeroed 2
  gapStart := 0
  gapEnd := 2
  counters := { maxCapacity := 2 }

/-- A text that was replaced by a longer one, for which the region grew, and then cut. -/
def cutSteps : List Step :=
  [.create "a", .insert 0 "ab", .endSequence, .replace 1 2 "xyz0123", .endSequence, .erase 0 8]

theorem replays_contained_cut :
    (∃ d, Desk.Run { buffer := roomForTwo, history := { settings := {} } } d ∧
      d.history.canUndo = true ∧ Contained d.buffer d.history) ∧
    ∃ s, Script.runFrom .host 1 cutSteps smallStart = (.ok (), s) ∧ ∃ sb ∈ s.store.buffers,
      sb.history.undoCount = 2 ∧ sb.buffer.length < sb.buffer.counters.maxLength ∧
        Contained sb.buffer sb.history := by
  obtain ⟨hdesk, hscript⟩ := replays_contained
  refine ⟨?_, ?_⟩
  · have hrun : Desk.Run { buffer := roomForTwo, history := { settings := {} } } _ :=
      .step .start (@Desk.Step.insert _ .ample .ample 0 0 0 2 [97, 98] _ _ rfl rfl)
    exact ⟨_, hrun, by decide +kernel, hdesk (.withCapacity 2) .ample _ _ _ rfl hrun⟩
  · have hok : (Script.runFrom .host 1 cutSteps smallStart).1.isOk = true := by decide +kernel
    have hcut : (Script.runFrom .host 1 cutSteps smallStart).2.store.currentBuffer?.any
        (fun sb => sb.history.undoCount = 2 && sb.buffer.length < sb.buffer.counters.maxLength) =
          true := by decide +kernel
    rcases hsteps : Script.runFrom .host 1 cutSteps smallStart with ⟨e | ⟨⟩, s⟩
    · rw [hsteps] at hok
      cases hok
    · rw [hsteps] at hcut
      obtain ⟨sb, hsb, hcut⟩ := (Option.any_eq_true _ _).1 hcut
      simp only [Bool.and_eq_true, decide_eq_true_eq] at hcut
      obtain ⟨id, -, hfind⟩ := Option.bind_eq_some_iff.1 hsb
      have hmem := List.mem_of_find?_eq_some hfind
      exact ⟨s, rfl, sb, hmem, hcut.1, hcut.2,
        hscript { initialCapacity := 4 } 0 [] .host cutSteps _ s hsteps sb hmem⟩

end TextStore
