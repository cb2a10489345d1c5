import TextStore.Proofs.Gap.Checked
import TextStore.Proofs.History.Refinement

/-!
# History operations that check every access

The operations of a history once more, each of them stopping with `none` at the first subtraction
that would be negative, the first index past the end of a list and the first range that is reversed
or reaches past it. The sequences to evict are counted upwards here, and a replay reads the cursor
it answers with from the list of operations.

On a well-formed history no check fails: `redoCount?_eq`, `current?_eq` and `operationsOf?_eq` for
what is read, `HistoryStep.perform?_eq` for every operation.
-/

namespace TextStore

/-- The items of `[start, stop)`, where that is a range of the list. -/
def span? {α : Type} (l : List α) (start stop : Nat) : Option (List α) :=
  if start ≤ stop ∧ stop ≤ l.length then some ((l.drop start).take (stop - start)) else none

theorem span?_of_le {α : Type} {l : List α} {start stop : Nat} (h : start ≤ stop)
    (hs : stop ≤ l.length) : span? l start stop = some ((l.drop start).take (stop - start)) :=
  if_pos ⟨h, hs⟩

theorem span?_from {α : Type} {l : List α} {start : Nat} (h : start ≤ l.length) :
    span? l start l.length = some (l.drop start) := by
  rw [span?_of_le h (Nat.le_refl _), List.take_of_length_le (Nat.le_of_eq List.length_drop)]

def Sequence.rebase? (count : Nat) (seq : Sequence) : Option Sequence := do
  let start ← sub? seq.start count
  let stop ← sub? seq.stop count
  some { seq with start, stop }

theorem Tiled.mapM_rebase? {start stop count : Nat} {l : List Sequence} (h : Tiled start l stop)
    (hle : count ≤ start) : l.mapM (Sequence.rebase? count) = some (l.map (Sequence.rebase count)) := by
  induction l generalizing start with
  | nil => rfl
  | cons seq rest ih =>
    obtain ⟨hstart, hlt, hrest⟩ := h
    have hseq : seq.rebase? count = some (seq.rebase count) := by
      rw [Sequence.rebase?, sub?_of_le (by omega), sub?_of_le (by omega)]
      rfl
    simp [hseq, ih hrest (by omega)]

namespace History

variable {h : History}

/-! ## Reading -/

def redoCount? (h : History) : Option Nat := sub? h.sequences.length h.applied

/-- The sequence that the next undo takes back, where its number is one of a sequence. -/
def current? (h : History) : Option (Option Sequence) :=
  match h.applied with
  | 0 => some none
  | n + 1 => h.sequences[n]?.map some

def operationsOf? (h : History) (seq : Sequence) : Option (List Operation) :=
  span? h.operations seq.start seq.stop

theorem redoCount?_eq (hw : h.WellFormed) : h.redoCount? = some h.redoCount :=
  sub?_of_le hw.applied_le

theorem current?_eq (hw : h.WellFormed) : h.current? = some h.currentSequence? := by
  have hle := hw.applied_le
  unfold current? currentSequence?
  cases happlied : h.applied with
  | zero => rfl
  | succ n => simp [List.getElem?_eq_getElem (show n < h.sequences.length by omega)]

theorem operationsOf?_eq (hw : h.WellFormed) {seq : Sequence} (hseq : seq ∈ h.sequences) :
    h.operationsOf? seq = some (h.operationsOf seq) := by
  obtain ⟨-, hlt, hstop⟩ := hw.tiled.of_mem hseq
  exact span?_of_le (Nat.le_of_lt hlt) hstop

/-- The operations of a sequence begin and end where its range does. -/
theorem ends_operationsOf (hw : h.WellFormed) {seq : Sequence} (hseq : seq ∈ h.sequences) :
    ∃ first last, h.operations[seq.start]? = some first ∧ h.operations[seq.stop - 1]? = some last ∧
      (h.operationsOf seq).head? = some first ∧ (h.operationsOf seq).getLast? = some last := by
  obtain ⟨-, hlt, hstop⟩ := hw.tiled.of_mem hseq
  have hfirst := List.getElem?_eq_getElem (show seq.start < h.operations.length by omega)
  have hlast := List.getElem?_eq_getElem (show seq.stop - 1 < h.operations.length by omega)
  refine ⟨_, _, hfirst, hlast, ?_, ?_⟩
  · rw [operationsOf, List.head?_take, if_neg (by omega), List.head?_drop, hfirst]
  · rw [operationsOf, List.getLast?_take, if_neg (by omega), List.getElem?_drop,
      show seq.start + (seq.stop - seq.start - 1) = seq.stop - 1 by omega, hlast]
    rfl

/-! ## Committing -/

def dropRedoable? (h : History) : Option History :=
  if h.applied = h.sequences.length then some h
  else do
    let seq ← h.sequences[h.applied]?
    let gone ← span? h.operations seq.start h.operations.length
    let heldBytes ← sub? h.heldBytes (Operation.totalBytes gone)
    some { h with
      operations := h.operations.take seq.start
      sequences := h.sequences.take h.applied
      heldBytes }

/-- How many sequences have to go when `evicted` are gone already, `rest` are left and hold at most
`bytes` bytes, and the bytes left after that. -/
def evictions? (h : History) : (rest : List Sequence) → (evicted bytes : Nat) → Option (Nat × Nat)
  | rest, evicted, bytes => do
    let applied ← sub? h.applied evicted
    let count ← sub? h.sequences.length evicted
    if 1 < applied ∧ (h.settings.maxSequences < count ∨ h.settings.maxMemory < bytes) then
      match rest with
      | [] => none
      | seq :: rest => do
        let ops ← h.operationsOf? seq
        let left ← sub? bytes (Operation.totalBytes ops)
        h.evictions? rest (evicted + 1) left
    else some (evicted, bytes)

def evictOldest? (h : History) : Option History := do
  let (evicted, left) ← h.evictions? h.sequences 0 h.heldBytes
  if evicted = 0 then some h
  else do
    let number ← sub? evicted 1
    let last ← h.sequences[number]?
    let operations ← span? h.operations last.stop h.operations.length
    let sequences ← span? h.sequences evicted h.sequences.length
    let sequences ← sequences.mapM (Sequence.rebase? last.stop)
    let applied ← sub? h.applied evicted
    some { h with operations, sequences, applied, heldBytes := left }

def closeSequence? (mem : Memory) (now : Nat) (h : History) :
    Option (Except HistoryError Unit × History) :=
  match h.opened with
  | none => some (.ok (), h)
  | some s =>
    if s.operations.isEmpty then some (.ok (), { h with opened := none, phase := .idle })
    else if mem.commit s.operations.length then do
      let kept ← dropRedoable? { h with opened := none, phase := .idle }
      let limited ← (kept.append s now).evictOldest?
      some (.ok (), limited)
    else some (.error (.allocationFailed s.operations.length), { h with phase := .recording })

theorem dropRedoable?_eq (hw : h.WellFormed) : h.dropRedoable? = some h.dropRedoable := by
  have hle := hw.applied_le
  unfold dropRedoable? dropRedoable nextSequence?
  by_cases hall : h.applied = h.sequences.length
  · rw [if_pos hall, List.getElem?_eq_none (by omega)]
  · have hseq := List.getElem?_eq_getElem (show h.applied < h.sequences.length by omega)
    obtain ⟨-, hgone⟩ := hw.tiled.split hseq
    have hbytes := Operation.totalBytes_append (h.operations.take h.sequences[h.applied].start)
      (h.operations.drop h.sequences[h.applied].start)
    rw [List.take_append_drop, ← hw.heldBytes] at hbytes
    have hheld : Operation.totalBytes (h.operations.drop h.sequences[h.applied].start) ≤
        h.heldBytes := by omega
    simp only [if_neg hall, hseq, span?_from hgone.le, sub?_of_le hheld, Option.bind_eq_bind,
      Option.bind_some]

/-- Counting upwards finds what counting downwards finds, as long as the sequences that are left
hold no more than `bytes` bytes. -/
theorem evictions?_eq (hw : h.WellFormed) (hall : h.applied = h.sequences.length)
    {rest : List Sequence} {evicted bytes : Nat} (hrest : ∀ seq ∈ rest, seq ∈ h.sequences)
    (hlen : evicted + rest.length = h.sequences.length)
    (hbytes : Group.textLength (rest.map h.groupOf) ≤ bytes) :
    h.evictions? rest evicted bytes =
      some (evicted + (h.evictions rest rest.length rest.length bytes).1,
        (h.evictions rest rest.length rest.length bytes).2) := by
  induction rest generalizing evicted bytes with
  | nil =>
    rw [List.length_nil] at hlen
    have happlied : h.applied - evicted = 0 := by omega
    rw [evictions?, sub?_of_le (by omega), sub?_of_le (by omega), happlied]
    rfl
  | cons seq rest ih =>
    simp only [List.length_cons] at hlen
    have hheld : Operation.totalBytes (h.operationsOf seq) +
        Group.textLength (rest.map h.groupOf) ≤ bytes := by
      rwa [List.map_cons, Group.textLength_cons] at hbytes
    have happlied : h.applied - evicted = rest.length + 1 := by omega
    have hcount : h.sequences.length - evicted = rest.length + 1 := by omega
    have hops := operationsOf?_eq hw (hrest seq List.mem_cons_self)
    rw [evictions?, sub?_of_le (by omega), sub?_of_le (by omega), happlied, hcount, evictions]
    simp only [Option.bind_eq_bind, Option.bind_some, List.length_cons]
    split
    · simp only [hops, sub?_of_le (Nat.le_of_add_right_le hheld), Option.bind_some,
        Nat.add_sub_cancel]
      rw [ih (fun old hold => hrest old (List.mem_cons_of_mem _ hold)) (by omega) (by omega)]
      simp only [Nat.add_assoc, Nat.add_comm 1]
    · rfl

theorem evictOldest?_eq (hw : h.WellFormed) (hall : h.applied = h.sequences.length) :
    h.evictOldest? = some h.evictOldest := by
  have hcount := evictions?_eq hw hall (fun _ => id) (Nat.zero_add _)
    (Nat.le_of_eq (heldBytes_eq hw).symm)
  obtain ⟨-, -, hlt⟩ := h.evictions_eq h.sequences
  rw [← groups, ← heldBytes_eq hw] at hlt
  rw [evictOldest?, hcount, Option.bind_eq_bind, Option.bind_some, evictOldest, hall]
  rcases heq : h.evictions h.sequences h.sequences.length h.sequences.length h.heldBytes with
    ⟨_ | evicted, left⟩
  · rfl
  · rw [heq] at hlt
    have hin : evicted + 1 < h.sequences.length := by
      apply hlt
      intro hnil
      rw [hnil] at heq
      cases heq
    have hlast := List.getElem?_eq_getElem (show evicted < h.sequences.length by omega)
    obtain ⟨-, hkept⟩ := hw.tiled.split_after hlast
    have hnumber : sub? (evicted + 1) 1 = some evicted := sub?_of_le (Nat.le_add_left 1 evicted)
    simp only [Nat.zero_add, Nat.add_one_ne_zero, if_false, hnumber, hlast, span?_from hkept.le,
      span?_from (Nat.le_of_lt hin), hkept.mapM_rebase? (Nat.le_refl _),
      sub?_of_le (Nat.le_of_lt hin), Option.bind_eq_bind, Option.bind_some]

theorem closeSequence?_eq (mem : Memory) (now : Nat) (hw : h.WellFormed) :
    h.closeSequence? mem now = some (h.closeSequence mem now) := by
  unfold closeSequence? closeSequence
  cases hopen : h.opened with
  | none => rfl
  | some s =>
    simp only [List.isEmpty_iff]
    by_cases hs : s.operations = []
    · rw [if_pos hs, if_pos hs]
    · rw [if_neg hs, if_neg hs]
      split
      · have hclosed : WellFormed { h with opened := none, phase := .idle } :=
          ⟨hw.applied_le, hw.tiled, hw.heldBytes, rfl⟩
        obtain ⟨hw₁, -, -⟩ := dropRedoable_spec hclosed
        obtain ⟨hw₂, -, hall⟩ := append_spec hw₁ s now hs
        rw [dropRedoable?_eq hclosed, Option.bind_eq_bind, Option.bind_some,
          evictOldest?_eq hw₂ hall]
        rfl
      · rfl

/-! ## Recording and replaying -/

def beginSequence? (mem : Memory) (now : Nat) (h : History) :
    Option (Except HistoryError Unit × History) := do
  let closed ← h.closeSequence? mem now
  match closed with
  | (.error e, h') => some (.error e, h')
  | (.ok (), h') => some (.ok (), h'.startSequence now)

def ensureOpen? (mem : Memory) (now : Nat) (h : History) :
    Option (Except HistoryError Unit × History) :=
  match h.opened with
  | none => some (.ok (), h.startSequence now)
  | some s =>
    if h.settings.windowMs < now - s.startedAt then h.beginSequence? mem now else some (.ok (), h)

def record? (mem : Memory) (now : Nat) (h : History) (position : Nat) (edit : Edit)
    (cursorBefore cursorAfter : Nat) : Option (Except HistoryError Unit × History) :=
  if !h.recordingAllowed then some (.ok (), h)
  else
    match edit.refusedText? mem with
    | some size => some (.error (.allocationFailed size), h)
    | none => do
      let opened ← h.ensureOpen? mem now
      match opened with
      | (.error e, h') => some (.error e, h')
      | (.ok (), h') => some (h'.addOperation mem now position edit cursorBefore cursorAfter)

variable {σ : Type}

def undo? (mem : Memory) (now : Nat) (target : ReplayTarget σ) (h : History) (s : σ) :
    Option (Except HistoryError Nat × History × σ) := do
  let closed ← h.closeSequence? mem now
  match closed with
  | (.error e, h) => some (.error e, h, s)
  | (.ok (), h) => do
    let current ← h.current?
    match current with
    | none => some (.error .noUndo, h, s)
    | some seq => do
      let ops ← h.operationsOf? seq
      match replay (fun op => op.revert target) ops.reverse s with
      | (.error e, s') => some (.error e, { h with phase := .idle }, s')
      | (.ok (), s') => do
        let applied ← sub? h.applied 1
        let first ← h.operations[seq.start]?
        some (.ok first.cursorBefore, { h with phase := .idle, applied }, s')

def redo? (mem : Memory) (now : Nat) (target : ReplayTarget σ) (h : History) (s : σ) :
    Option (Except HistoryError Nat × History × σ) := do
  let closed ← h.closeSequence? mem now
  match closed with
  | (.error e, h) => some (.error e, h, s)
  | (.ok (), h) =>
    if h.applied = h.sequences.length then some (.error .noRedo, h, s)
    else do
      let seq ← h.sequences[h.applied]?
      let ops ← h.operationsOf? seq
      match replay (fun op => op.apply target) ops s with
      | (.error e, s') => some (.error e, { h with phase := .idle }, s')
      | (.ok (), s') => do
        let number ← sub? seq.stop 1
        let last ← h.operations[number]?
        some (.ok last.cursorAfter, { h with phase := .idle, applied := h.applied + 1 }, s')

theorem beginSequence?_eq (mem : Memory) (now : Nat) (hw : h.WellFormed) :
    h.beginSequence? mem now = some (h.beginSequence mem now) := by
  rw [beginSequence?, closeSequence?_eq mem now hw, Option.bind_eq_bind, Option.bind_some,
    beginSequence]
  rcases h.closeSequence mem now with ⟨e | ⟨⟩, h'⟩ <;> rfl

theorem ensureOpen?_eq (mem : Memory) (now : Nat) (hw : h.WellFormed) :
    h.ensureOpen? mem now = some (h.ensureOpen mem now) := by
  unfold ensureOpen? ensureOpen
  cases h.opened with
  | none => rfl
  | some s =>
    simp only
    split
    · exact beginSequence?_eq mem now hw
    · rfl

theorem record?_eq (mem : Memory) (now : Nat) (hw : h.WellFormed) (position : Nat) (edit : Edit)
    (cursorBefore cursorAfter : Nat) :
    h.record? mem now position edit cursorBefore cursorAfter =
      some (h.record mem now position edit cursorBefore cursorAfter) := by
  unfold record? record
  split
  · rfl
  · cases edit.refusedText? mem with
    | some size => rfl
    | none =>
      simp only [ensureOpen?_eq mem now hw, Option.bind_eq_bind, Option.bind_some]
      rcases h.ensureOpen mem now with ⟨e | ⟨⟩, h'⟩ <;> rfl

/-- What closing leaves behind is well formed, whether it is refused memory or not. -/
theorem wellFormed_closeSequence (mem : Memory) (now : Nat) (hw : h.WellFormed) :
    (h.closeSequence mem now).2.WellFormed := by
  rcases closeSequence_cases mem now hw with ⟨-, -, heq⟩ | ⟨h', heq, hw', -⟩
  · rw [heq]
    exact hw
  · rw [heq]
    exact hw'

theorem undo?_eq (mem : Memory) (now : Nat) (hw : h.WellFormed) (target : ReplayTarget σ) (s : σ) :
    h.undo? mem now target s = some (h.undo mem now target s) := by
  have hw' := wellFormed_closeSequence mem now hw
  rw [undo?, closeSequence?_eq mem now hw, Option.bind_eq_bind, Option.bind_some, undo]
  rcases hclose : h.closeSequence mem now with ⟨e | ⟨⟩, h₁⟩
  · rfl
  · rw [hclose] at hw'
    simp only [current?_eq hw', Option.bind_eq_bind, Option.bind_some]
    cases hseq : h₁.currentSequence? with
    | none => rfl
    | some seq =>
      have happlied : 1 ≤ h₁.applied := by
        rw [currentSequence?] at hseq
        split at hseq
        · cases hseq
        · omega
      have hmem : seq ∈ h₁.sequences := by
        rw [currentSequence?] at hseq
        split at hseq
        · cases hseq
        · exact List.mem_of_getElem? hseq
      obtain ⟨first, last, hfirst, -, hhead, -⟩ := ends_operationsOf hw' hmem
      simp only [operationsOf?_eq hw' hmem, Option.bind_some]
      rcases replay (fun op => op.revert target) (h₁.operationsOf seq).reverse s with ⟨e | ⟨⟩, s'⟩
      · rfl
      · simp only [sub?_of_le happlied, hfirst, hhead, Option.bind_some]
        rfl

theorem redo?_eq (mem : Memory) (now : Nat) (hw : h.WellFormed) (target : ReplayTarget σ) (s : σ) :
    h.redo? mem now target s = some (h.redo mem now target s) := by
  have hw' := wellFormed_closeSequence mem now hw
  rw [redo?, closeSequence?_eq mem now hw, Option.bind_eq_bind, Option.bind_some, redo]
  rcases hclose : h.closeSequence mem now with ⟨e | ⟨⟩, h₁⟩
  · rfl
  · rw [hclose] at hw'
    have hle : h₁.applied ≤ h₁.sequences.length := hw'.applied_le
    simp only [Option.bind_eq_bind]
    by_cases hall : h₁.applied = h₁.sequences.length
    · rw [if_pos hall, nextSequence?, List.getElem?_eq_none (by omega)]
    · have hseq := List.getElem?_eq_getElem (show h₁.applied < h₁.sequences.length by omega)
      have hmem := List.mem_of_getElem? hseq
      obtain ⟨first, last, -, hlast, -, hget⟩ := ends_operationsOf hw' hmem
      have hlt := (hw'.tiled.of_mem hmem).2.1
      simp only [if_neg hall, nextSequence?, hseq, operationsOf?_eq hw' hmem, Option.bind_some]
      rcases replay (fun op => op.apply target) (h₁.operationsOf h₁.sequences[h₁.applied]) s with
        ⟨e | ⟨⟩, s'⟩
      · rfl
      · have hstop : 1 ≤ h₁.sequences[h₁.applied].stop := by omega
        simp only [sub?_of_le hstop, hlast, hget, Option.bind_some]
        rfl

end History

/-! ## Every operation -/

namespace HistoryStep

variable {h : History}

def perform? (h : History) : (step : HistoryStep) → Option (step.Outcome × History)
  | beginSequence mem now => h.beginSequence? mem now
  | closeSequence mem now => h.closeSequence? mem now
  | record mem now position edit cursorBefore cursorAfter =>
    h.record? mem now position edit cursorBefore cursorAfter
  | undo mem now target s =>
    (h.undo? mem now target s).map fun (answer, h', s') => ((answer, s'), h')
  | redo mem now target s =>
    (h.redo? mem now target s).map fun (answer, h', s') => ((answer, s'), h')
  | clear => some ((), h.clear)
  | setEnabled on => some ((), h.setEnabled on)

theorem perform?_eq (hw : h.WellFormed) (step : HistoryStep) :
    step.perform? h = some (step.perform h) := by
  cases step with
  | beginSequence mem now => exact History.beginSequence?_eq mem now hw
  | closeSequence mem now => exact History.closeSequence?_eq mem now hw
  | record mem now position edit cursorBefore cursorAfter =>
    exact History.record?_eq mem now hw position edit cursorBefore cursorAfter
  | undo mem now target s =>
    simp only [perform?, History.undo?_eq mem now hw target s]
    rfl
  | redo mem now target s =>
    simp only [perform?, History.redo?_eq mem now hw target s]
    rfl
  | clear => rfl
  | setEnabled on => rfl

end HistoryStep

end TextStore
