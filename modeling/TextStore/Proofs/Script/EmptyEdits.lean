import TextStore.Proofs.History.Refinement
import TextStore.Proofs.Script.Atomicity
import TextStore.Proofs.Script.Replay

/-!
# Edits of no bytes in a script

An edit that inserts nothing and removes nothing leaves the buffer exactly as it is, but it is
recorded like any other: a history drops sequences without operations, and this one has one.

* `redo_of_openOperations`, `undo_of_openOperations` : a replay commits the operations that are open,
  which throws away what could be redone;
* `Step.emptyEdit?` : the steps that insert and remove nothing;
* `edit_nil_of_ok`, `opens_edit_nil` : what such a step does to the buffer and to its history;
* `EmptyEditReplays` : how a redo and an undo go after it;
* `empty_edit_ends_redo` : they go like that wherever scripts lead to, while the redo succeeds
  without the edit.
-/

namespace TextStore

/-! ## Recording into an empty sequence -/

/-- With nothing recorded in the open group, or none open, an operation stands alone in its group. -/
theorem Outline.openOperations_record {o : Outline} (hon : o.enabled = true)
    (ho : o.openOperations = []) (now position : Nat) (edit : Edit)
    (cursorBefore cursorAfter : Nat) :
    (o.record now position edit cursorBefore cursorAfter).openOperations =
      [o.newOperation now position edit cursorBefore cursorAfter] := by
  have hopen : ∃ s, (o.ensureOpen now).opened = some s ∧ s.operations = [] := by
    unfold ensureOpen
    split
    · exact ⟨_, rfl, rfl⟩
    · next s hs =>
      split
      · exact ⟨_, rfl, rfl⟩
      · rw [openOperations, hs] at ho
        exact ⟨s, hs, ho⟩
  obtain ⟨s, hs, hempty⟩ := hopen
  rw [record, if_pos hon, add, hs, openOperations]
  simp only [hempty, List.nil_append, newOperation, nextOperationId_ensureOpen]

/-! ## Replaying with operations open -/

namespace History

variable {h : History} {σ : Type} {mem : Memory}

/-- Open operations become the last undoable group, and nothing can be redone after it. -/
theorem close_of_openOperations (hops : h.openOperations ≠ []) :
    ∃ g : Group, g.operations = h.openOperations ∧
      h.outline.close.undoable.getLast? = some g ∧ h.outline.close.redoable = [] := by
  obtain ⟨id, n, hn, heq⟩ := Outline.close_eq_of_ne_nil (o := h.outline) hops
  refine ⟨{ id, operations := h.openOperations }, rfl, ?_, by rw [heq]⟩
  rw [heq, List.drop_append_of_le_length hn, List.getLast?_concat]
  rfl

/-- A redo commits the open operations and throws away what could be redone. -/
theorem redo_of_openOperations (hw : h.WellFormed) (hops : h.openOperations ≠ [])
    (hmem : mem.commit h.openOperations.length = true) (now : Nat) (target : ReplayTarget σ)
    (s : σ) :
    ∃ h', h.redo mem now target s = (.error .noRedo, h', s) ∧ h'.redoCount = 0 ∧
      h'.toUndo = h.openOperations := by
  obtain ⟨g, hg, hlast, hnone⟩ := close_of_openOperations hops
  rcases outline_redo mem now hw target s with ⟨-, hno, -⟩ | ⟨answer, h', s', heq, hw', hredo⟩
  · rw [hmem] at hno
    cases hno
  · simp only [Outline.redo, hnone, Prod.mk.injEq] at hredo
    obtain ⟨rfl, houtline, rfl⟩ := hredo
    refine ⟨h', heq, ?_, ?_⟩
    · rw [(follows_outline hw').redoCount, ← houtline, hnone, List.length_nil]
    · rw [← Outline.close_close, houtline] at hlast
      rw [toUndo_eq hw' hlast, hg]

/-- An undo commits the open operations and takes back just them. -/
theorem undo_of_openOperations (hw : h.WellFormed) (hops : h.openOperations ≠ [])
    (hmem : mem.commit h.openOperations.length = true) (now : Nat) (target : ReplayTarget σ)
    {s s' : σ}
    (hback : replay (fun op => op.revert target) h.openOperations.reverse s = (.ok (), s')) :
    ∃ h', h.undo mem now target s =
        (.ok ((h.openOperations.head?.map Operation.cursorBefore).getD 0), h', s') ∧
      h'.redoCount = 1 ∧ h'.toRedo = h.openOperations := by
  obtain ⟨g, hg, hlast, hnone⟩ := close_of_openOperations hops
  rcases outline_undo mem now hw target s with ⟨-, hno, -⟩ | ⟨answer, h', s₁, heq, hw', hundo⟩
  · rw [hmem] at hno
    cases hno
  · rw [replay_revertCalls] at hback
    simp only [Outline.undo, hlast, hg, hback, Prod.mk.injEq] at hundo
    obtain ⟨rfl, houtline, rfl⟩ := hundo
    have hredoable : h'.outline.redoable = [g] := by rw [← houtline, hnone]
    have hopened : h'.outline.opened = none := by rw [← houtline, Outline.opened_close]
    refine ⟨h', heq, ?_, ?_⟩
    · rw [(follows_outline hw').redoCount, hredoable, List.length_singleton]
    · rw [← Outline.close_of_none hopened] at hredoable
      rw [toRedo_eq hredoable, hg]

end History

/-! ## Edits of no bytes -/

/-- The position of an edit that inserts no byte and removes none. -/
def Step.emptyEdit? : Step → Option Nat
  | insert pos text => if text = "" then some pos else none
  | erase start stop => if start = stop then some start else none
  | replace start stop text => if start = stop ∧ text = "" then some start else none
  | _ => none

theorem Step.action?_of_emptyEdit {step : Step} {pos : Nat} (hstep : step.emptyEdit? = some pos)
    (mem : Memory) (now cursor : Nat) :
    step.action? mem now cursor = some (.edit mem now cursor pos pos "") := by
  cases step with
  | insert start text =>
    obtain ⟨rfl, hpos⟩ := Option.ite_none_right_eq_some.1 hstep
    cases hpos
    rfl
  | erase start stop =>
    obtain ⟨rfl, hpos⟩ := Option.ite_none_right_eq_some.1 hstep
    cases hpos
    rfl
  | replace start stop text =>
    obtain ⟨⟨rfl, rfl⟩, hpos⟩ := Option.ite_none_right_eq_some.1 hstep
    cases hpos
    rfl
  | _ => cases hstep

namespace StoredBuffer

variable {sb sb' : StoredBuffer} {mem : Memory} {now cursor pos n : Nat}

/-- An edit of no bytes leaves the buffer exactly as it is, and is recorded like any other. -/
theorem edit_nil_of_ok (hb : sb.buffer.WellFormed)
    (hedit : sb.edit mem now cursor pos pos [] = (.ok n, sb')) :
    pos ≤ sb.buffer.length ∧ sb.buffer.readOnly = false ∧ ∃ h', sb' = { sb with history := h' } ∧
      sb.history.record mem now pos (.insert []) cursor pos = (.ok (), h') := by
  obtain ⟨-, removed, sb₁, hsplice, hrecord⟩ := edit_of_ok hedit
  obtain ⟨hextract, b₁, b₂, hdelete, hinsert, rfl⟩ := splice_of_ok hsplice
  obtain rfl := removed_of_ok hb hextract
  -- both halves of the splice are idle, so what is recorded is an insert of nothing
  have hsame₁ := (sb.buffer.delete_eq_self_iff pos pos).2 (.inr rfl)
  rw [hdelete] at hsame₁
  obtain rfl : b₁ = sb.buffer := hsame₁
  have hsame₂ := (sb.buffer.insert_eq_self_iff mem pos []).2 (.inr rfl)
  rw [hinsert] at hsame₂
  obtain rfl : b₂ = sb.buffer := hsame₂
  have hnone : (sb.buffer.contents.take pos).drop pos = [] := by simp
  simp only [recordSplice, hnone, List.isEmpty_nil, if_true, List.length_nil, Nat.add_zero,
    Prod.mk.injEq] at hrecord
  obtain ⟨hanswer, rfl⟩ := hrecord
  exact ⟨(GapBuffer.delete_of_ok hb hdelete).2.1, (GapBuffer.deleted_of_ok hb hdelete).1,
    _, rfl, Prod.ext hanswer rfl⟩

/-- Without operations open, an edit of no bytes opens one, and the history stays well-formed. -/
theorem opens_edit_nil (hs : Synced sb.buffer sb.history) (hops : sb.history.openOperations = [])
    (hedit : sb.edit mem now cursor pos pos [] = (.ok n, sb')) :
    pos ≤ sb.buffer.length ∧ sb.buffer.readOnly = false ∧ sb'.buffer = sb.buffer ∧
      sb'.history.WellFormed ∧
      sb'.history.openOperations =
        [sb.history.outline.newOperation now pos (.insert []) cursor pos] := by
  obtain ⟨limit, T, hs⟩ := hs
  obtain ⟨hpos, hw, h', rfl, hrecord⟩ := edit_nil_of_ok hs.buffer hedit
  refine ⟨hpos, hw, rfl, ?_⟩
  rcases History.record_cases mem now hs.history pos (.insert []) cursor pos with
    ⟨m, h₁, heq, -⟩ | ⟨h₁, heq, hw₁, houtline⟩
  · rw [hrecord] at heq
    cases heq
  · rw [hrecord] at heq
    cases heq
    refine ⟨hw₁, ?_⟩
    show h'.outline.openOperations = _
    rw [houtline]
    exact Outline.openOperations_record hs.texts.enabled hops now pos _ cursor pos

/-- Taking an operation of no bytes back changes nothing in a writable buffer. -/
theorem replay_revert_nil {b : GapBuffer} {op : Operation} (hop : op.edit = .insert [])
    (hpos : op.position ≤ b.length) (hw : b.readOnly = false) (mem : Memory) :
    History.replay (fun op => op.revert (GapBuffer.replayTarget mem)) [op] b = (.ok (), b) := by
  have hdelete : b.delete op.position op.position = (.ok (), b) := by
    simp [GapBuffer.delete, hw, Nat.not_lt.2 hpos]
  simp only [History.replay, Operation.revert, hop, List.length_nil, Nat.add_zero,
    GapBuffer.replayTarget, hdelete]
  rfl

end StoredBuffer

/-! ## Replays around an edit of no bytes -/

/-- `op` was recorded by an edit of no bytes; the session `s` after the edit has the current buffer
as it was, but its next undo takes back only `op` and its redo finds nothing. -/
structure EmptyEditReplays (mem : Memory) (sb : StoredBuffer) (op : Operation) (s : Session) :
    Prop where
  edited : ∃ sb₁, s.store.currentBuffer? = some sb₁ ∧ sb₁.buffer = sb.buffer ∧
    sb₁.history.canRedo = false ∧ sb₁.history.toUndo = [op]
  /-- What could be redone before the edit is gone. -/
  redone : ∃ s₂ sb₂, s.apply mem .redo = (.error (.history .noRedo), s₂) ∧
    s₂.store.currentBuffer? = some sb₂ ∧ sb₂.buffer = sb.buffer ∧
    sb₂.history.redoCount = 0 ∧ sb₂.history.toUndo = [op]
  /-- The sequence that was undoable before the edit is not taken back. -/
  undone : ∃ s₂ sb₂, s.apply mem .undo = (.ok (), s₂) ∧ s₂.cursor = op.cursorBefore ∧
    s₂.store.currentBuffer? = some sb₂ ∧ sb₂.buffer = sb.buffer ∧
    sb₂.history.redoCount = 1 ∧ sb₂.history.toRedo = [op]

theorem EmptyEditReplays.of_openOperations {mem : Memory} {sb sb₁ : StoredBuffer} {op : Operation}
    {s : Session} (hsb : s.store.currentBuffer? = some sb₁) (hbuffer : sb₁.buffer = sb.buffer)
    (hw : sb₁.history.WellFormed) (hops : sb₁.history.openOperations = [op])
    (hop : op.edit = .insert []) (hpos : op.position ≤ sb.buffer.length)
    (hwritable : sb.buffer.readOnly = false) (hmem : mem.commit 1 = true) :
    EmptyEditReplays mem sb op s := by
  have hne : sb₁.history.openOperations ≠ [] := by rw [hops]; exact List.cons_ne_nil _ _
  have hmem₁ : mem.commit sb₁.history.openOperations.length = true := by rw [hops]; exact hmem
  refine ⟨⟨sb₁, hsb, hbuffer, ?_, ?_⟩, ?_, ?_⟩
  · simp [History.canRedo, hops]
  · simp [History.toUndo, hops]
  · obtain ⟨h', heq, hcount, hundo⟩ := History.redo_of_openOperations hw hne hmem₁ s.now
      (GapBuffer.replayTarget mem) sb₁.buffer
    have hredo : sb₁.redo mem s.now = (.error .noRedo, { sb₁ with history := h' }) := by
      simp only [StoredBuffer.redo, heq]
    refine ⟨s.put sb₁.id { sb₁ with history := h' }, _, ?_, s.currentBuffer?_put hsb _, hbuffer,
      hcount, hops ▸ hundo⟩
    rw [Session.apply_of_action? rfl, Session.moving_of_some hsb]
    simp only [Action.replay, hredo, Except.mapError]
  · have hback : History.replay (fun op => op.revert (GapBuffer.replayTarget mem))
        sb₁.history.openOperations.reverse sb₁.buffer = (.ok (), sb₁.buffer) := by
      rw [hops]
      exact StoredBuffer.replay_revert_nil hop (hbuffer ▸ hpos) (hbuffer ▸ hwritable) mem
    obtain ⟨h', heq, hcount, hredo⟩ :=
      History.undo_of_openOperations hw hne hmem₁ s.now (GapBuffer.replayTarget mem) hback
    have hundo : sb₁.undo mem s.now = (.ok op.cursorBefore, { sb₁ with history := h' }) := by
      simp only [StoredBuffer.undo, heq, hops]
      rfl
    refine ⟨{ s.put sb₁.id { sb₁ with history := h' } with cursor := op.cursorBefore }, _, ?_, rfl,
      s.currentBuffer?_put hsb _, hbuffer, hcount, hops ▸ hredo⟩
    rw [Session.apply_of_action? rfl, Session.moving_of_some hsb]
    simp only [Action.replay, hundo, Except.mapError]

/-- Without operations open, what can be redone is redone on a writable buffer. -/
theorem Session.redo_of_redoCount {s : Session} {sb : StoredBuffer}
    (hs : Synced sb.buffer sb.history) (hsb : s.store.currentBuffer? = some sb)
    (hops : sb.history.openOperations = []) (hredo : 0 < sb.history.redoCount)
    (hw : sb.buffer.readOnly = false) (mem : Memory) : (s.apply mem .redo).1 = .ok () := by
  have hcan : sb.history.canRedo = true := by
    have hlt : sb.history.applied < sb.history.sequences.length := Nat.lt_of_sub_pos hredo
    simp [History.canRedo, hops, hlt]
  obtain ⟨limit, T, hs⟩ := hs
  rw [apply_answer, perform, replay_answer, hsb, replayAnswer]
  rcases hs.redo_cases mem s.now with ⟨hne, -⟩ | ⟨T', answer, h', b', heq, -, hresult, -⟩
  · exact absurd hops hne
  · have hanswer := hresult.answer
    rw [hcan, hw] at hanswer
    simp only [StoredBuffer.redo, heq]
    cases hanswer with
    | nothing hno => cases hno
    | readOnly _ hro => cases hro
    | cursor _ _ cursor => rfl

/-- Whatever scripts were run on a new store and whatever steps the present one has made: when
sequences can be redone in the current buffer and no operation is open, a redo succeeds. After an
accepted edit of no bytes it finds nothing any more, although no byte has changed: the edit was
recorded as an operation, which is also all that an undo takes back then. -/
theorem empty_edit_ends_redo (settings : Settings) (now : Nat) (runs : List (Memory × Script))
    (mem : Memory) (steps : List Step) (answer : Except Failure Unit) (s : Session)
    (hsteps : Script.runFrom mem 1 steps
      { Script.runAll runs { store := { settings }, now } with cursor := 0 } = (answer, s))
    (sb : StoredBuffer) (hsb : s.store.currentBuffer? = some sb)
    (hops : sb.history.openOperations = []) (hredo : 0 < sb.history.redoCount)
    (step : Step) (pos : Nat) (hstep : step.emptyEdit? = some pos) (mem₁ : Memory) (s₁ : Session)
    (hok : s.apply mem₁ step = (.ok (), s₁)) (mem₂ : Memory) (hmem₂ : mem₂.commit 1 = true) :
    (s.apply mem₂ .redo).1 = .ok () ∧
      ∃ op : Operation, op.edit = .insert [] ∧ op.position = pos ∧ op.cursorBefore = s.cursor ∧
        op.id = sb.history.nextOperationId ∧ EmptyEditReplays mem₂ sb op s₁ := by
  have hnew : Store.Each Synced { settings } := fun _ hsb => by cases hsb
  have hruns := synced_invariant.runAll (s := { store := { settings }, now }) hnew runs
  have hreached := synced_invariant.runFrom
    (s := { Script.runAll runs { store := { settings }, now } with cursor := 0 }) hruns mem 1 steps
  rw [hsteps] at hreached
  have hs : Synced sb.buffer sb.history := hreached sb (Store.mem_of_currentBuffer? hsb)
  rw [Session.apply_of_action? (Step.action?_of_emptyEdit hstep mem₁ s.now s.cursor),
    Session.moving_of_some hsb] at hok
  have hempty : Utf8.encode "" = [] := by simp [Utf8.encode]
  simp only [Action.edit, hempty] at hok
  rcases hedit : sb.edit mem₁ s.now s.cursor pos pos [] with ⟨e | n, sb'⟩
  · rw [hedit] at hok
    cases hok
  · rw [hedit] at hok
    obtain ⟨-, rfl⟩ := Prod.mk.inj hok
    obtain ⟨hpos, hw, hbuffer, hw', hops'⟩ := StoredBuffer.opens_edit_nil hs hops hedit
    refine ⟨Session.redo_of_redoCount hs hsb hops hredo hw mem₂,
      sb.history.outline.newOperation s.now pos (.insert []) s.cursor pos, rfl, rfl, rfl, rfl, ?_⟩
    exact .of_openOperations (s.currentBuffer?_put hsb sb') hbuffer hw' hops' rfl hpos hw hmem₂

/-- Two sequences, the second undone. -/
def undoneSteps : List Step :=
  [.create "a", .insert 0 "ab", .endSequence, .insert 2 "c", .undo]

theorem empty_edit_ends_redo_undone : ∃ s s₁ s₂,
    Script.runFrom .host 1 undoneSteps smallStart = (.ok (), s) ∧
      (s.apply .host .redo).1 = .ok () ∧ s.apply .host (.replace 1 1 "") = (.ok (), s₁) ∧
      (s₁.apply .host .redo).1 = .error (.history .noRedo) ∧
      s₁.apply .host .undo = (.ok (), s₂) ∧
      s₂.store.currentBuffer?.map StoredBuffer.buffer =
        s.store.currentBuffer?.map StoredBuffer.buffer := by
  have hok : (Script.runFrom .host 1 undoneSteps smallStart).1.isOk = true := by decide +kernel
  have hcounts : (Script.runFrom .host 1 undoneSteps smallStart).2.store.currentBuffer?.any
      (fun sb => sb.history.openOperations.isEmpty && decide (0 < sb.history.redoCount)) = true := by
    decide +kernel
  have hedit : ((Script.runFrom .host 1 undoneSteps smallStart).2.apply .host
      (.replace 1 1 "")).1.isOk = true := by decide +kernel
  rcases hsteps : Script.runFrom .host 1 undoneSteps smallStart with ⟨e | ⟨⟩, s⟩
  · rw [hsteps] at hok
    cases hok
  rw [hsteps] at hcounts hedit
  rcases happly : s.apply .host (.replace 1 1 "") with ⟨e | ⟨⟩, s₁⟩
  · rw [happly] at hedit
    cases hedit
  obtain ⟨sb, hsb, hcounts⟩ := (Option.any_eq_true _ _).1 hcounts
  rw [Bool.and_eq_true, List.isEmpty_iff, decide_eq_true_eq] at hcounts
  obtain ⟨hredo, op, -, -, -, -, hreplays⟩ :=
    empty_edit_ends_redo { initialCapacity := 4 } 0 [] .host undoneSteps _ s hsteps sb hsb hcounts.1
      hcounts.2 (.replace 1 1 "") 1 rfl .host s₁ happly .host rfl
  obtain ⟨_, _, hnone, -⟩ := hreplays.redone
  obtain ⟨s₂, sb₂, hundo, -, hsb₂, hbuffer, -⟩ := hreplays.undone
  refine ⟨s, s₁, s₂, rfl, hredo, happly, by rw [hnone], hundo, ?_⟩
  rw [hsb, hsb₂, Option.map_some, Option.map_some, hbuffer]

end TextStore
