import TextStore.History.Record
import TextStore.Proofs.Store.InStep

/-!
# Undo and redo restore snapshots

* `Desk` : a buffer, the history that records its edits, and a log of the text before and after
  each of them (`Moment`), which nothing but the statements here reads;
* `Desk.Step` : one call on the buffer or the history, or an edit of the buffer with the record
  that goes with it. The clock may show any time at each call;
* `Desk.Snapshots T` : the text was `T i` before the first operation of sequence number `i`, and
  `T (i + 1)` after its last one;
* `Desk.Restores T` : undoing and redoing put these texts back one after the other;
* `run_restores_snapshots` : so they do after every run of steps.
-/

namespace TextStore

/-- What the text was before and after the edit that was recorded under an id. -/
structure Moment where
  operation : Nat
  before : List UInt8
  after : List UInt8
  deriving DecidableEq, Repr

/-- A buffer, the history of its edits, and what its text was around each of them. -/
structure Desk where
  buffer : GapBuffer
  history : History
  /-- The recorded edits, oldest first. -/
  moments : List Moment := []
  deriving DecidableEq, Repr

/-- The first entry of the log for the id of an operation. -/
def momentOf? (moments : List Moment) (op : Operation) : Option Moment :=
  moments.find? fun m => m.operation == op.id

namespace Desk

/-- The buffer has become `b` by an edit, recorded under the next id in what is now `h`. -/
def edited (d : Desk) (b : GapBuffer) (h : History) : Desk where
  buffer := b
  history := h
  moments := d.moments ++
    [{ operation := d.history.nextOperationId, before := d.buffer.contents, after := b.contents }]

inductive Step (d : Desk) : Desk → Prop
  | insert {mem mem' : Memory} {now pos cursorBefore cursorAfter : Nat} {text : List UInt8}
      {b : GapBuffer} {h : History} (hinsert : d.buffer.insert mem pos text = (.ok (), b))
      (hrecord : d.history.recordInsert mem' now pos text cursorBefore cursorAfter = (.ok (), h)) :
      Step d (d.edited b h)
  /-- Deletes a range and records the text that was there. -/
  | delete {mem : Memory} {now start stop cursorBefore cursorAfter : Nat} {b : GapBuffer}
      {h : History} (hdelete : d.buffer.delete start stop = (.ok (), b))
      (hrecord : d.history.recordDelete mem now start ((d.buffer.contents.take stop).drop start)
        cursorBefore cursorAfter = (.ok (), h)) :
      Step d (d.edited b h)
  /-- Replaces a range and records the text that was there and the one that is. -/
  | replace {mem mem' : Memory} {now start stop cursorBefore cursorAfter : Nat} {text : List UInt8}
      {b₁ b : GapBuffer} {h : History} (hdelete : d.buffer.delete start stop = (.ok (), b₁))
      (hinsert : b₁.insert mem start text = (.ok (), b))
      (hrecord : d.history.recordReplace mem' now start ((d.buffer.contents.take stop).drop start)
        text cursorBefore cursorAfter = (.ok (), h)) :
      Step d (d.edited b h)
  | beginSequence (mem : Memory) (now : Nat) :
      Step d { d with history := (d.history.beginSequence mem now).2 }
  | closeSequence (mem : Memory) (now : Nat) :
      Step d { d with history := (d.history.closeSequence mem now).2 }
  | undo (mem : Memory) (now : Nat) :
      Step d { d with
        history := (d.history.undo mem now (GapBuffer.replayTarget mem) d.buffer).2.1
        buffer := (d.history.undo mem now (GapBuffer.replayTarget mem) d.buffer).2.2 }
  | redo (mem : Memory) (now : Nat) :
      Step d { d with
        history := (d.history.redo mem now (GapBuffer.replayTarget mem) d.buffer).2.1
        buffer := (d.history.redo mem now (GapBuffer.replayTarget mem) d.buffer).2.2 }
  | clear : Step d { d with history := d.history.clear }
  | moveGap (pos : Nat) : Step d { d with buffer := (d.buffer.moveGap pos).2 }
  | reserve (mem : Memory) (needed : Nat) :
      Step d { d with buffer := (d.buffer.reserve mem needed).2 }
  | setReadOnly (on : Bool) : Step d { d with buffer := d.buffer.setReadOnly on }
  | setModified (on : Bool) : Step d { d with buffer := d.buffer.setModified on }

inductive Run (d : Desk) : Desk → Prop
  | start : Run d d
  | step {d₁ d₂ : Desk} (hrun : Run d d₁) (hstep : d₁.Step d₂) : Run d d₂

/-! ## What a step keeps -/

/-- The log says that `op` led from `t` to `t'`. -/
def Logged (moments : List Moment) : Transition := fun op t t' =>
  momentOf? moments op = some { operation := op.id, before := t, after := t' }

/-- The buffer and the history are in step along the logged texts, and the log holds no id that is
still to be given. -/
structure Invariant (d : Desk) : Prop where
  inStep : ∃ limit T, InStep (Logged d.moments) limit T d.buffer d.history
  fresh : ∀ m ∈ d.moments, m.operation < d.history.nextOperationId

theorem Logged.append {moments : List Moment} {op : Operation} {t t' : List UInt8}
    (hlogged : Logged moments op t t') (more : List Moment) :
    Logged (moments ++ more) op t t' := by
  rw [Logged, momentOf?, List.find?_append, show moments.find? _ = _ from hlogged]
  rfl

theorem logged_new {moments : List Moment} {op : Operation}
    (hfresh : ∀ m ∈ moments, m.operation < op.id) (t t' : List UInt8) :
    Logged (moments ++ [{ operation := op.id, before := t, after := t' }]) op t t' := by
  have hnone : moments.find? (fun m => m.operation == op.id) = none := by
    rw [List.find?_eq_none]
    intro m hm heq
    have := hfresh m hm
    rw [beq_iff_eq] at heq
    omega
  rw [Logged, momentOf?, List.find?_append, hnone]
  simp

variable {d d' : Desk}

namespace Invariant

/-- An edit with its record: whatever the edit is, it splices the text of the buffer. -/
theorem edited (hd : d.Invariant) {mem : Memory} {now position cursorBefore cursorAfter : Nat}
    {edit : Edit} {b : GapBuffer} {h : History} {pre post : List UInt8}
    (hrecord : d.history.record mem now position edit cursorBefore cursorAfter = (.ok (), h))
    (hpre : pre.length = position)
    (hbefore : d.buffer.contents = pre ++ edit.deletedText ++ post)
    (hb : d.buffer.Becomes b (pre ++ edit.insertedText ++ post)) : (d.edited b h).Invariant := by
  obtain ⟨⟨limit, T, hs⟩, hfresh⟩ := hd
  have hlogged := hs.mono fun hop => hop.append
    [{ operation := d.history.nextOperationId, before := d.buffer.contents, after := b.contents }]
  obtain ⟨T', hs'⟩ := hlogged.record_ok hrecord hb.wellFormed
    (Nat.le_trans hs.limit_le hb.capacity) (Nat.le_refl _)
    (GapBuffer.length_contents_le hb.wellFormed) ⟨pre, post, hpre, hbefore, hb.contents⟩
    (logged_new hfresh _ _)
  refine ⟨⟨b.capacity, T', hs'⟩, ?_⟩
  have hnext := History.nextOperationId_record hs.history hs.texts.enabled hrecord
  intro m hm
  rw [show (d.edited b h).history.nextOperationId = _ from hnext]
  rcases List.mem_append.1 hm with hold | hnew
  · have := hfresh m hold
    omega
  · rw [List.mem_singleton.1 hnew]
    exact Nat.lt_succ_self _

theorem unlogged (hd : d.Invariant) {b : GapBuffer} {h : History}
    (hs : ∃ limit T, InStep (Logged d.moments) limit T b h)
    (hnext : h.nextOperationId = d.history.nextOperationId) :
    Invariant { d with buffer := b, history := h } :=
  ⟨hs, fun m hm => hnext ▸ hd.fresh m hm⟩

theorem step (hd : d.Invariant) (hstep : d.Step d') : d'.Invariant := by
  obtain ⟨limit, T, hs⟩ := hd.inStep
  cases hstep with
  | @insert mem mem' now pos cursorBefore cursorAfter text b h hinsert hrecord =>
    obtain ⟨hpos, hb⟩ := GapBuffer.insert_of_ok hs.buffer hinsert
    refine hd.edited hrecord (GapBuffer.length_take_contents hs.buffer hpos) ?_ hb
    rw [Edit.deletedText, List.append_nil, List.take_append_drop]
  | @delete mem now start stop cursorBefore cursorAfter b h hdelete hrecord =>
    obtain ⟨hle, hstop, hb⟩ := GapBuffer.delete_of_ok hs.buffer hdelete
    refine hd.edited hrecord (GapBuffer.length_take_contents hs.buffer (Nat.le_trans hle hstop))
      (GapBuffer.eq_before_in_after hle _) ?_
    rw [Edit.insertedText, List.append_nil]
    exact hb
  | @replace mem mem' now start stop cursorBefore cursorAfter text b₁ b h hdelete hinsert hrecord =>
    obtain ⟨hle, hstop, -⟩ := GapBuffer.delete_of_ok hs.buffer hdelete
    exact hd.edited hrecord (GapBuffer.length_take_contents hs.buffer (Nat.le_trans hle hstop))
      (GapBuffer.eq_before_in_after hle _) (GapBuffer.replace_of_ok hs.buffer hdelete hinsert)
  | beginSequence mem now =>
    exact hd.unlogged ⟨limit, hs.beginSequence mem now⟩
      (History.nextOperationId_beginSequence hs.history mem now)
  | closeSequence mem now =>
    exact hd.unlogged ⟨limit, hs.closeSequence mem now⟩
      (History.nextOperationId_closeSequence hs.history mem now)
  | undo mem now =>
    exact hd.unlogged ⟨limit, hs.undo mem now⟩
      (History.nextOperationId_undo hs.history mem now _ _)
  | redo mem now =>
    exact hd.unlogged ⟨limit, hs.redo mem now⟩
      (History.nextOperationId_redo hs.history mem now _ _)
  | clear => exact hd.unlogged ⟨limit, _, hs.clear⟩ rfl
  | moveGap pos =>
    exact hd.unlogged ⟨limit, T, hs.becomes (GapBuffer.moveGap_becomes hs.buffer pos)⟩ rfl
  | reserve mem needed =>
    exact hd.unlogged ⟨limit, T, hs.becomes (GapBuffer.reserve_becomes mem hs.buffer needed)⟩ rfl
  | setReadOnly on =>
    exact hd.unlogged ⟨limit, T, hs.withBuffer hs.buffer rfl (Nat.le_refl _)⟩ rfl
  | setModified on =>
    exact hd.unlogged ⟨limit, T, hs.withBuffer hs.buffer rfl (Nat.le_refl _)⟩ rfl

theorem run (hd : d.Invariant) (hrun : d.Run d') : d'.Invariant := by
  induction hrun with
  | start => exact hd
  | step _ hstep ih => exact ih.step hstep

end Invariant

end Desk

/-! ## Undoing and redoing in turn -/

section InTurn

variable {σ α : Type}

/-- Makes one call after the other; the answers, and the state afterwards. -/
def inTurn (f : Memory → Nat → σ → α × σ) : List (Memory × Nat) → σ → List α × σ
  | [], s => ([], s)
  | (mem, now) :: rest, s =>
    let (answer, s') := f mem now s
    let (answers, s'') := inTurn f rest s'
    (answer :: answers, s'')

/-- `P n` holds before the call number `n` and `Q n` of its answer, as long as there are at most
`count` calls. -/
theorem inTurn_spec {f : Memory → Nat → σ → α × σ} (P : Nat → σ → Prop) (Q : Nat → α → Prop)
    (count : Nat)
    (hf : ∀ n mem now s, n < count → P n s → Q n (f mem now s).1 ∧ P (n + 1) (f mem now s).2)
    {n : Nat} {s : σ} (hs : P n s) (calls : List (Memory × Nat)) (hle : n + calls.length ≤ count) :
    P (n + calls.length) (inTurn f calls s).2 ∧
      ∀ j < calls.length, ∃ answer, (inTurn f calls s).1[j]? = some answer ∧ Q (n + j) answer := by
  induction calls generalizing n s with
  | nil => exact ⟨hs, nofun⟩
  | cons call rest ih =>
    obtain ⟨mem, now⟩ := call
    rw [List.length_cons] at hle ⊢
    obtain ⟨hanswer, hs'⟩ := hf n mem now s (by omega) hs
    obtain ⟨hlast, hanswers⟩ := ih hs' (by omega)
    rw [Nat.add_assoc, Nat.add_comm 1] at hlast
    refine ⟨hlast, fun j hj => ?_⟩
    cases j with
    | zero => exact ⟨_, rfl, hanswer⟩
    | succ j =>
      obtain ⟨answer, hget, hq⟩ := hanswers j (by omega)
      rw [Nat.add_assoc, Nat.add_comm 1] at hq
      exact ⟨answer, hget, hq⟩

end InTurn

def undoOn (mem : Memory) (now : Nat) (s : History × GapBuffer) :
    Except HistoryError Nat × History × GapBuffer :=
  s.1.undo mem now (GapBuffer.replayTarget mem) s.2

def redoOn (mem : Memory) (now : Nat) (s : History × GapBuffer) :
    Except HistoryError Nat × History × GapBuffer :=
  s.1.redo mem now (GapBuffer.replayTarget mem) s.2

/-- A writable buffer in step with a history of the groups `gs`, of which `n` can be undone, and
nothing recorded behind them. -/
structure AtRest (K : Transition) (limit : Nat) (T : Nat → List UInt8) (gs : List Group) (n : Nat)
    (s : History × GapBuffer) : Prop where
  inStep : InStep K limit T s.2 s.1
  nothingOpen : s.1.openOperations = []
  writable : s.2.readOnly = false
  groups : s.1.groups = gs
  applied : s.1.applied = n

namespace AtRest

variable {K : Transition} {limit n : Nat} {T : Nat → List UInt8} {gs : List Group}
  {s : History × GapBuffer}

theorem contents (hs : AtRest K limit T gs n s) : s.2.contents = T n := by
  have htext := hs.inStep.texts.eq_of_nil hs.nothingOpen
  rw [History.length_undoable hs.inStep.history, hs.applied] at htext
  exact htext.symm

/-- An undo goes from the text number `n + 1` to the text number `n`, and answers where the cursor
was before the group between them. -/
theorem undo (hs : AtRest K limit T gs (n + 1) s) (mem : Memory) (now : Nat) :
    (∃ g op, gs[n]? = some g ∧ g.operations.head? = some op ∧
      (undoOn mem now s).1 = .ok op.cursorBefore) ∧
    AtRest K limit T gs n (undoOn mem now s).2 := by
  obtain ⟨h, b⟩ := s
  obtain ⟨hs, hops, hw, rfl, happlied⟩ := hs
  simp only [undoOn] at *
  rcases hs.undo_cases mem now with ⟨hne, -⟩ | ⟨T', answer, h', b', heq, hsame, hresult, hs'⟩
  · exact absurd hops hne
  obtain rfl := hsame hops
  have hlen := History.length_undoable hs.history
  have hlen' := History.length_undoable hs'.history
  rw [Outline.close_eq_of_nil (o := h.outline) hops] at hresult
  rw [heq]
  generalize hr : (answer, h'.outline, b') = r at hresult
  cases hresult with
  | nothing hnone =>
    rw [show h.outline.undoable = [] from hnone, List.length_nil] at hlen
    omega
  | readOnly hg hop hro =>
    rw [hw] at hro
    cases hro
  | @back g op b₁ hg hop _ hb' =>
    obtain ⟨rfl, houtline, rfl⟩ : answer = .ok op.cursorBefore ∧ h'.outline = _ ∧ b' = b₁ := by
      simpa using hr
    obtain ⟨rest, hrest⟩ : ∃ rest, h.outline.undoable = rest ++ [g] := List.getLast?_eq_some_iff.1 hg
    simp only [hrest, List.dropLast_concat] at houtline
    rw [hrest, List.length_append, List.length_singleton] at hlen
    rw [houtline] at hlen'
    have hn : rest.length = n := by omega
    refine ⟨⟨g, op, ?_, hop, rfl⟩, hs', ?_, hb'.readOnly.trans hw, ?_, ?_⟩
    · rw [h.groups_eq, hrest, List.append_assoc, List.getElem?_append_right (by omega), hn,
        Nat.sub_self]
      rfl
    · exact Outline.openOperations_of_none (congrArg Outline.opened houtline)
    · rw [h'.groups_eq, h.groups_eq, houtline, hrest, List.append_assoc]
      rfl
    · exact hlen'.symm.trans hn

/-- A redo goes from the text number `n` to the text number `n + 1`, and answers where the cursor
was after the group between them. -/
theorem redo (hs : AtRest K limit T gs n s) (hlt : n < gs.length) (mem : Memory) (now : Nat) :
    (∃ g op, gs[n]? = some g ∧ g.operations.getLast? = some op ∧
      (redoOn mem now s).1 = .ok op.cursorAfter) ∧
    AtRest K limit T gs (n + 1) (redoOn mem now s).2 := by
  obtain ⟨h, b⟩ := s
  obtain ⟨hs, hops, hw, rfl, rfl⟩ := hs
  simp only [redoOn] at *
  rcases hs.redo_cases mem now with ⟨hne, -⟩ | ⟨T', answer, h', b', heq, hsame, hresult, hs'⟩
  · exact absurd hops hne
  obtain rfl := hsame hops
  have hlen := History.length_undoable hs.history
  have hlen' := History.length_undoable hs'.history
  rw [Outline.close_eq_of_nil (o := h.outline) hops] at hresult
  rw [heq]
  generalize hr : (answer, h'.outline, b') = r at hresult
  cases hresult with
  | nothing hnone =>
    rw [h.groups_eq, show h.outline.redoable = [] from hnone, List.append_nil] at hlt
    omega
  | readOnly hg hop hro =>
    rw [hw] at hro
    cases hro
  | @on g rest op b₁ hg hop _ hb' =>
    obtain ⟨rfl, houtline, rfl⟩ : answer = .ok op.cursorAfter ∧ h'.outline = _ ∧ b' = b₁ := by
      simpa using hr
    have hredoable : h.outline.redoable = g :: rest := hg
    rw [houtline, List.length_append, List.length_singleton] at hlen'
    refine ⟨⟨g, op, ?_, hop, rfl⟩, hs', ?_, hb'.readOnly.trans hw, ?_, ?_⟩
    · rw [h.groups_eq, hredoable, List.getElem?_append_right (Nat.le_of_eq hlen), hlen,
        Nat.sub_self]
      rfl
    · exact Outline.openOperations_of_none (congrArg Outline.opened houtline)
    · rw [h'.groups_eq, h.groups_eq, houtline, hredoable]
      exact (List.append_cons _ _ _).symm
    · rw [← hlen', hlen]

/-- The undo number `j` finds `n - j` undoable groups. -/
theorem undos (hs : AtRest K limit T gs n s) (calls : List (Memory × Nat))
    (hle : calls.length ≤ n) :
    AtRest K limit T gs (n - calls.length) (inTurn undoOn calls s).2 ∧
      ∀ j < calls.length, ∃ answer, (inTurn undoOn calls s).1[j]? = some answer ∧
        ∃ g op, gs[n - 1 - j]? = some g ∧ g.operations.head? = some op ∧
          answer = .ok op.cursorBefore := by
  have hall := inTurn_spec (f := undoOn) (fun j => AtRest K limit T gs (n - j))
    (fun j answer => ∃ g op, gs[n - 1 - j]? = some g ∧ g.operations.head? = some op ∧
      answer = .ok op.cursorBefore) n
    (fun j mem now s hj hs => by
      have hbefore : n - j = n - 1 - j + 1 := by omega
      have hafter : n - (j + 1) = n - 1 - j := by omega
      rw [hbefore] at hs
      rw [hafter]
      exact hs.undo mem now)
    (n := 0) hs calls (by omega)
  simpa only [Nat.zero_add] using hall

/-- The redo number `j` finds `n + j` undoable groups. -/
theorem redos (hs : AtRest K limit T gs n s) (calls : List (Memory × Nat))
    (hle : n + calls.length ≤ gs.length) :
    AtRest K limit T gs (n + calls.length) (inTurn redoOn calls s).2 ∧
      ∀ j < calls.length, ∃ answer, (inTurn redoOn calls s).1[j]? = some answer ∧
        ∃ g op, gs[n + j]? = some g ∧ g.operations.getLast? = some op ∧
          answer = .ok op.cursorAfter := by
  have hall := inTurn_spec (f := redoOn) (fun j => AtRest K limit T gs (n + j))
    (fun j answer => ∃ g op, gs[n + j]? = some g ∧ g.operations.getLast? = some op ∧
      answer = .ok op.cursorAfter) (gs.length - n)
    (fun j mem now s hj hs => hs.redo (by omega) mem now)
    (n := 0) hs calls (by omega)
  simpa only [Nat.zero_add] using hall

end AtRest

namespace Desk

variable {d : Desk}

/-- The text was `t` before the first operation of the sequence and `t'` after its last one. -/
structure Spans (d : Desk) (seq : Sequence) (t t' : List UInt8) : Prop where
  first : ∃ op m, (d.history.operationsOf seq).head? = some op ∧
    momentOf? d.moments op = some m ∧ m.before = t
  last : ∃ op m, (d.history.operationsOf seq).getLast? = some op ∧
    momentOf? d.moments op = some m ∧ m.after = t'

/-- Sequence number `i` began at the text `T i` and ended at the text `T (i + 1)`. -/
def Snapshots (d : Desk) (T : Nat → List UInt8) : Prop :=
  ∀ i seq, d.history.sequences[i]? = some seq → d.Spans seq (T i) (T (i + 1))

/-- The texts `T` are snapshots, and undoing and redoing puts them back. -/
structure Restores (d : Desk) (T : Nat → List UInt8) : Prop where
  snapshots : d.Snapshots T
  contents : d.history.openOperations = [] → d.buffer.contents = T d.history.applied
  /-- As many undos as there are undoable sequences succeed, each with the cursor before the first
  operation of its sequence. -/
  undo : d.history.openOperations = [] → d.buffer.readOnly = false →
    ∀ calls : List (Memory × Nat), calls.length ≤ d.history.undoCount →
      (inTurn undoOn calls (d.history, d.buffer)).2.2.contents =
        T (d.history.applied - calls.length) ∧
      ∀ j < calls.length, ∃ seq op, d.history.sequences[d.history.applied - 1 - j]? = some seq ∧
        (d.history.operationsOf seq).head? = some op ∧
        (inTurn undoOn calls (d.history, d.buffer)).1[j]? = some (.ok op.cursorBefore)
  /-- As many redos as there are redoable sequences succeed, each with the cursor after the last
  operation of its sequence. -/
  redo : d.history.openOperations = [] → d.buffer.readOnly = false →
    ∀ calls : List (Memory × Nat), calls.length ≤ d.history.redoCount →
      (inTurn redoOn calls (d.history, d.buffer)).2.2.contents =
        T (d.history.applied + calls.length) ∧
      ∀ j < calls.length, ∃ seq op, d.history.sequences[d.history.applied + j]? = some seq ∧
        (d.history.operationsOf seq).getLast? = some op ∧
        (inTurn redoOn calls (d.history, d.buffer)).1[j]? = some (.ok op.cursorAfter)

theorem snapshots_of_inStep {limit : Nat} {T : Nat → List UInt8}
    (hs : InStep (Logged d.moments) limit T d.buffer d.history) : d.Snapshots T := by
  intro i seq hseq
  have hget : d.history.groups[i]? = some (d.history.groupOf seq) := by
    rw [History.groups_getElem?, hseq]
    rfl
  rw [History.groups_eq] at hget
  obtain ⟨hne, hleads⟩ := hs.texts.committed i _ hget
  have hfirst := List.head?_eq_some_head hne
  have hlast := List.getLast?_eq_some_getLast hne
  obtain ⟨mid, -, hlogged⟩ := hleads.head hfirst
  obtain ⟨mid', -, hlogged'⟩ := hleads.getLast hlast
  exact ⟨⟨_, _, hfirst, hlogged, rfl⟩, ⟨_, _, hlast, hlogged', rfl⟩⟩

theorem restores_of_inStep {limit : Nat} {T : Nat → List UInt8}
    (hs : InStep (Logged d.moments) limit T d.buffer d.history) : d.Restores T := by
  refine ⟨snapshots_of_inStep hs, ?_, ?_, ?_⟩
  · intro hops
    rw [← History.length_undoable hs.history]
    exact (hs.texts.eq_of_nil hops).symm
  · intro hops hw calls hle
    have hrest : AtRest (Logged d.moments) limit T d.history.groups d.history.applied
        (d.history, d.buffer) := ⟨hs, hops, hw, rfl, rfl⟩
    obtain ⟨hlast, hanswers⟩ := hrest.undos calls hle
    refine ⟨hlast.contents, fun j hj => ?_⟩
    obtain ⟨answer, hget, g, op, hg, hop, rfl⟩ := hanswers j hj
    obtain ⟨seq, hseq, hops⟩ := History.exists_sequence hg
    exact ⟨seq, op, hseq, hops ▸ hop, hget⟩
  · intro hops hw calls hle
    have hrest : AtRest (Logged d.moments) limit T d.history.groups d.history.applied
        (d.history, d.buffer) := ⟨hs, hops, hw, rfl, rfl⟩
    have happlied := hs.history.applied_le
    rw [History.redoCount] at hle
    obtain ⟨hlast, hanswers⟩ :=
      hrest.redos calls (by rw [History.length_groups]; omega)
    refine ⟨hlast.contents, fun j hj => ?_⟩
    obtain ⟨answer, hget, g, op, hg, hop, rfl⟩ := hanswers j hj
    obtain ⟨seq, hseq, hops⟩ := History.exists_sequence hg
    exact ⟨seq, op, hseq, hops ▸ hop, hget⟩

/-- After every run of steps that starts with any text and an empty history, the sequences that are
left have snapshots that undoing and redoing put back. -/
theorem run_restores_snapshots (b : GapBuffer) (hb : b.WellFormed) (settings : HistorySettings)
    (d : Desk) (hrun : Run { buffer := b, history := { settings } } d) : ∃ T, d.Restores T := by
  have hnew : Invariant { buffer := b, history := { settings } } :=
    ⟨⟨b.capacity, _, .new hb settings⟩, nofun⟩
  obtain ⟨limit, T, hs⟩ := (hnew.run hrun).inStep
  exact ⟨T, restores_of_inStep hs⟩

def shortText : GapBuffer where
  region := #[97, 98, 0, 0, 0, 0]
  gapStart := 2
  gapEnd := 6

/-- Two sequences, the second because the window of the first has passed, and an undo. -/
theorem run_restores_snapshots_shortText : ∃ d,
    Run { buffer := shortText, history := { settings := { windowMs := 10 } } } d ∧
      d.history.openOperations = [] ∧ d.history.undoCount = 1 ∧ d.history.redoCount = 1 ∧
      d.buffer.contents = [97, 99, 100, 98] ∧ ∃ T, d.Restores T := by
  have hrun : Run { buffer := shortText, history := { settings := { windowMs := 10 } } } _ :=
    .step (.step (.step .start
      (@Step.insert _ .ample .ample 0 1 1 3 [99, 100] _ _ rfl rfl))
      (@Step.replace _ .ample .ample 20 0 2 3 1 [120] _ _ _ rfl rfl rfl))
      (.undo .ample 30)
  refine ⟨_, hrun, ?_, ?_, ?_, ?_, ?_⟩
  · decide +kernel
  · decide +kernel
  · decide +kernel
  · decide +kernel
  · exact run_restores_snapshots shortText (by decide) _ _ hrun

end Desk

end TextStore
