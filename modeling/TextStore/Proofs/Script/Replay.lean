import TextStore.Proofs.Script.Buffers
import TextStore.Proofs.Store.Edit

/-!
# When undo and redo fail in a script

* `Retraces K` : a buffer is in step with its history, along some timeline. Whatever a step other
  than an edit does to a buffer keeps this up (`retraces_invariant`);
* `Synced` : the same with nothing more known of the operations. Edits keep this up as well
  (`synced_invariant`), so it holds of every buffer of every session;
* `History.toUndo`, `History.toRedo` : the operations that are replayed next;
* `ReplayFailures` : the conditions under which a replay of the current buffer fails, each exactly;
* `replay_failures` : they hold of both replays wherever scripts lead to.
-/

namespace TextStore

/-- The history of a buffer leads to its text, by operations of which `K` holds. -/
def Retraces (K : Transition) (b : GapBuffer) (h : History) : Prop :=
  ∃ limit T, InStep K limit T b h

theorem retraces_invariant (K : Transition) : HistoryInvariant (Retraces K) where
  new mem capacity b settings hb :=
    ⟨_, _, .new (GapBuffer.withCapacity_runs hb).1.wellFormed settings⟩
  beginSequence b h mem now := by
    rintro ⟨limit, T, hs⟩
    exact ⟨limit, hs.beginSequence mem now⟩
  closeSequence b h mem now := by
    rintro ⟨limit, T, hs⟩
    exact ⟨limit, hs.closeSequence mem now⟩
  undo sb mem now := by
    rintro ⟨limit, T, hs⟩
    exact ⟨limit, hs.undo mem now⟩
  redo sb mem now := by
    rintro ⟨limit, T, hs⟩
    exact ⟨limit, hs.redo mem now⟩
  setReadOnly b h on := by
    rintro ⟨limit, T, hs⟩
    exact ⟨limit, T, hs.withBuffer hs.buffer rfl (Nat.le_refl _)⟩

/-- The history of a buffer leads to its text. -/
def Synced (b : GapBuffer) (h : History) : Prop := Retraces (fun _ _ _ => True) b h

theorem synced_invariant : BufferInvariant Synced where
  toHistoryInvariant := retraces_invariant _
  edit sb mem now cursor start stop text := by
    rintro ⟨limit, T, hs⟩
    exact hs.edit mem now cursor start stop text fun _ _ _ => trivial

/-! ## What is replayed next -/

namespace History

variable {h : History} {g : Group}

/-- The operations that the next undo takes back: those of the open sequence, which it closes, or
else those of the current one. -/
def toUndo (h : History) : List Operation :=
  if h.openOperations.isEmpty then (h.currentSequence?.map h.operationsOf).getD []
  else h.openOperations

/-- The operations that the next redo makes again. -/
def toRedo (h : History) : List Operation := (h.nextSequence?.map h.operationsOf).getD []

theorem toUndo_eq (hw : h.WellFormed) (hg : h.outline.close.undoable.getLast? = some g) :
    h.toUndo = g.operations := by
  unfold toUndo
  by_cases hops : h.openOperations = []
  · rw [Outline.close_eq_of_nil (o := h.outline) hops, getLast?_undoable hw] at hg
    obtain ⟨seq, hseq, rfl⟩ := Option.map_eq_some_iff.1 hg
    rw [if_pos (List.isEmpty_iff.2 hops), hseq]
    rfl
  · obtain ⟨id, n, hn, heq⟩ := Outline.close_eq_of_ne_nil (o := h.outline) hops
    rw [heq, List.drop_append_of_le_length hn, List.getLast?_concat] at hg
    cases hg
    rw [if_neg (mt List.isEmpty_iff.1 hops)]
    rfl

theorem toRedo_eq {rest : List Group} (hg : h.outline.close.redoable = g :: rest) :
    h.toRedo = g.operations := by
  have hcan := (canRedo_iff h).2 (by rw [hg]; exact List.cons_ne_nil _ _)
  have hops : h.openOperations = [] := by
    rw [canRedo, Bool.and_eq_true, List.isEmpty_iff] at hcan
    exact hcan.1
  rw [Outline.close_eq_of_nil (o := h.outline) hops] at hg
  have hhead := head?_redoable h
  rw [show h.outline.redoable = g :: rest from hg, List.head?_cons] at hhead
  obtain ⟨seq, hseq, rfl⟩ := Option.map_eq_some_iff.1 hhead.symm
  rw [toRedo, hseq]
  rfl

end History

/-! ## One replay -/

/-- Without a refusal of memory, a replay answers that there is nothing, that the buffer is
read-only, or with a cursor. -/
inductive ReplayAnswer (can readOnly : Bool) (nothing : HistoryError) (blamed : Option Operation) :
    Except HistoryError Nat → Prop
  | nothing (hcan : can = false) : ReplayAnswer can readOnly nothing blamed (.error nothing)
  | readOnly (hcan : can = true) (hro : readOnly = true) {op : Operation} (hop : blamed = some op) :
      ReplayAnswer can readOnly nothing blamed
        (.error (.invalidState op.id BufferError.readOnly.message))
  | cursor (hcan : can = true) (hw : readOnly = false) (cursor : Nat) :
      ReplayAnswer can readOnly nothing blamed (.ok cursor)

section Answers

variable {h : History} {T : Nat → List UInt8} {b : GapBuffer}
  {r : Except HistoryError Nat × Outline × GapBuffer}

theorem UndoResult.answer (hr : UndoResult h.outline.close T b r) (hw : h.WellFormed) :
    ReplayAnswer h.canUndo b.readOnly .noUndo h.toUndo.getLast? r.1 := by
  have hcan := History.canUndo_iff hw
  have hsome {g : Group} (hg : h.outline.close.undoable.getLast? = some g) : h.canUndo = true := by
    refine hcan.2 fun hnil => ?_
    rw [hnil] at hg
    cases hg
  cases hr with
  | nothing hnone => exact .nothing (Bool.eq_false_iff.2 fun htrue => hcan.1 htrue hnone)
  | readOnly hg hop hro =>
    exact .readOnly (hsome hg) hro (by rw [History.toUndo_eq hw hg, hop])
  | back hg hop hwritable hb' => exact .cursor (hsome hg) hwritable _

theorem RedoResult.answer (hr : RedoResult h.outline.close T b r) :
    ReplayAnswer h.canRedo b.readOnly .noRedo h.toRedo.head? r.1 := by
  have hcan := History.canRedo_iff h
  have hsome {g : Group} {rest : List Group} (hg : h.outline.close.redoable = g :: rest) :
      h.canRedo = true := by
    refine hcan.2 fun hnil => ?_
    rw [hnil] at hg
    cases hg
  cases hr with
  | nothing hnone => exact .nothing (Bool.eq_false_iff.2 fun htrue => hcan.1 htrue hnone)
  | readOnly hg hop hro =>
    exact .readOnly (hsome hg) hro (by rw [History.toRedo_eq hg, hop])
  | on hg hop hwritable hb' => exact .cursor (hsome hg) hwritable _

end Answers

theorem undo_answer {sb : StoredBuffer} (hs : Synced sb.buffer sb.history) {mem : Memory}
    (hmem : ∀ n, mem.commit n = true) (now : Nat) :
    ReplayAnswer sb.history.canUndo sb.buffer.readOnly .noUndo sb.history.toUndo.getLast?
      (sb.undo mem now).1 := by
  obtain ⟨limit, T, hs⟩ := hs
  rcases hs.undo_cases mem now with ⟨-, hno, -⟩ | ⟨T', answer, h', b', heq, -, hresult, -⟩
  · rw [hmem] at hno
    cases hno
  · simp only [StoredBuffer.undo, heq]
    exact hresult.answer hs.history

theorem redo_answer {sb : StoredBuffer} (hs : Synced sb.buffer sb.history) {mem : Memory}
    (hmem : ∀ n, mem.commit n = true) (now : Nat) :
    ReplayAnswer sb.history.canRedo sb.buffer.readOnly .noRedo sb.history.toRedo.head?
      (sb.redo mem now).1 := by
  obtain ⟨limit, T, hs⟩ := hs
  rcases hs.redo_cases mem now with ⟨-, hno, -⟩ | ⟨T', answer, h', b', heq, -, hresult, -⟩
  · rw [hmem] at hno
    cases hno
  · simp only [StoredBuffer.redo, heq]
    exact hresult.answer

/-! ## Steps of a script -/

/-- When a step that replays the history of the current buffer fails, and how: `can` says whether
there is something to replay, `nothing` is the answer when there is not, and `blamed` the operation
that a read-only buffer refuses. -/
structure ReplayFailures (current : Option StoredBuffer) (can : History → Bool)
    (nothing : HistoryError) (blamed : History → Option Operation)
    (answer : Except StepError Unit) : Prop where
  noCurrentBuffer : answer = .error .noCurrentBuffer ↔ current = none
  nothingLeft : ∀ sb, current = some sb →
    (answer = .error (.history nothing) ↔ can sb.history = false)
  invalidState : ∀ sb, current = some sb → can sb.history = true →
    ((∃ id reason, answer = .error (.history (.invalidState id reason))) ↔
      sb.buffer.readOnly = true)
  /-- The reason is the read-only flag, and the operation is one of what was to be replayed. -/
  blamed : ∀ sb, current = some sb → ∀ id reason,
    answer = .error (.history (.invalidState id reason)) →
    reason = BufferError.readOnly.message ∧ ∃ op, blamed sb.history = some op ∧ id = op.id
  accepted : ∀ sb, current = some sb → can sb.history = true → sb.buffer.readOnly = false →
    answer = .ok ()

/-- The answer of a step that replays the history of the current buffer by `f`. -/
def replayAnswer (f : StoredBuffer → Except HistoryError Nat × StoredBuffer) :
    Option StoredBuffer → Except StepError Unit
  | none => .error .noCurrentBuffer
  | some sb => ((f sb).1.mapError StepError.history).map fun _ => ()

namespace Session

theorem replay_answer (s : Session) (f : StoredBuffer → Except HistoryError Nat × StoredBuffer) :
    (s.replay f).1 = replayAnswer f s.store.currentBuffer? := by
  unfold replay moving onCurrent Store.update Store.currentBuffer?
  cases s.store.current with
  | none => rfl
  | some id =>
    simp only [Option.bind_some]
    cases s.store.find? id with
    | none => rfl
    | some sb =>
      simp only [replayAnswer]
      rcases f sb with ⟨e | cursor, sb'⟩ <;> rfl

theorem apply_answer (s : Session) (mem : Memory) (step : Step) :
    (s.apply mem step).1 = (s.perform mem step).1 := by
  unfold apply
  split
  · next heq => rw [heq]
  · next heq => rw [heq]

end Session

theorem ReplayFailures.of_answer {current : Option StoredBuffer} {can : History → Bool}
    {nothing : HistoryError} {blamed : History → Option Operation}
    {f : StoredBuffer → Except HistoryError Nat × StoredBuffer}
    (hnothing : ∀ id reason, nothing ≠ .invalidState id reason)
    (hanswer : ∀ sb, current = some sb →
      ReplayAnswer (can sb.history) sb.buffer.readOnly nothing (blamed sb.history) (f sb).1) :
    ReplayFailures current can nothing blamed (replayAnswer f current) := by
  cases current with
  | none => refine ⟨⟨fun _ => rfl, fun _ => rfl⟩, ?_, ?_, ?_, ?_⟩ <;> rintro _ ⟨⟩
  | some sb =>
    have hsb := hanswer sb rfl
    simp only [replayAnswer]
    generalize (f sb).1 = answer at hsb
    cases hsb with
    | nothing hcan =>
      refine ⟨⟨nofun, nofun⟩, ?_, ?_, ?_, ?_⟩
      · rintro _ ⟨⟩
        exact ⟨fun _ => hcan, fun _ => rfl⟩
      · rintro _ ⟨⟩ htrue
        rw [hcan] at htrue
        cases htrue
      · rintro _ - id reason heq
        injection heq with heq
        injection heq with heq
        exact absurd heq (hnothing id reason)
      · rintro _ ⟨⟩ htrue
        rw [hcan] at htrue
        cases htrue
    | @readOnly hcan hro op hop =>
      refine ⟨⟨nofun, nofun⟩, ?_, ?_, ?_, ?_⟩
      · rintro _ ⟨⟩
        refine ⟨fun heq => ?_, fun hfalse => ?_⟩
        · injection heq with heq
          injection heq with heq
          exact absurd heq.symm (hnothing _ _)
        · rw [hcan] at hfalse
          cases hfalse
      · rintro _ ⟨⟩ -
        exact ⟨fun _ => hro, fun _ => ⟨_, _, rfl⟩⟩
      · rintro _ ⟨⟩ _ _ ⟨⟩
        exact ⟨rfl, op, hop, rfl⟩
      · rintro _ ⟨⟩ - hw
        rw [hro] at hw
        cases hw
    | cursor hcan hw cursor =>
      refine ⟨⟨nofun, nofun⟩, ?_, ?_, ?_, fun _ _ _ _ => rfl⟩
      · rintro _ ⟨⟩
        refine ⟨nofun, fun hfalse => ?_⟩
        rw [hcan] at hfalse
        cases hfalse
      · rintro _ ⟨⟩ -
        refine ⟨?_, fun hro => ?_⟩
        · rintro ⟨_, _, heq⟩
          cases heq
        · rw [hw] at hro
          cases hro
      · rintro _ - _ _ ⟨⟩

/-- Whatever scripts were run on a new store and whatever steps the present one has made, the next
undo and the next redo fail exactly when there is no current buffer, nothing to replay, or a
read-only buffer. -/
theorem replay_failures (settings : Settings) (now : Nat) (runs : List (Memory × Script))
    (mem : Memory) (steps : List Step) (s : Session)
    (hsteps : Script.runFrom mem 1 steps
      { Script.runAll runs { store := { settings }, now } with cursor := 0 } = (.ok (), s))
    (mem' : Memory) (hmem' : ∀ n, mem'.commit n = true) :
    ReplayFailures s.store.currentBuffer? History.canUndo .noUndo
        (fun h => h.toUndo.getLast?) (s.apply mem' .undo).1 ∧
      ReplayFailures s.store.currentBuffer? History.canRedo .noRedo
        (fun h => h.toRedo.head?) (s.apply mem' .redo).1 := by
  have hnew : Store.Each Synced { settings } := fun _ hsb => by cases hsb
  have hruns := synced_invariant.runAll (s := { store := { settings }, now }) hnew runs
  have hreached := synced_invariant.runFrom
    (s := { Script.runAll runs { store := { settings }, now } with cursor := 0 }) hruns mem 1 steps
  rw [hsteps] at hreached
  have hcurrent (sb : StoredBuffer) (hsb : s.store.currentBuffer? = some sb) :
      Synced sb.buffer sb.history := by
    obtain ⟨id, -, hfind⟩ := Option.bind_eq_some_iff.1 hsb
    exact hreached.find hfind
  refine ⟨?_, ?_⟩
  · rw [Session.apply_answer, Session.perform, Session.replay_answer]
    refine .of_answer (f := fun sb => sb.undo mem' s.now) ?_ ?_
    · rintro _ _ ⟨⟩
    · exact fun sb hsb => undo_answer (hcurrent sb hsb) hmem' s.now
  · rw [Session.apply_answer, Session.perform, Session.replay_answer]
    refine .of_answer (f := fun sb => sb.redo mem' s.now) ?_ ?_
    · rintro _ _ ⟨⟩
    · exact fun sb hsb => redo_answer (hcurrent sb hsb) hmem' s.now

/-- Two sequences, the second undone, in a buffer that becomes read-only. -/
def readOnlySteps : List Step :=
  [.create "a", .insert 0 "x", .endSequence, .insert 1 "y", .erase 0 1, .undo, .readOnly true]

theorem replay_failures_readOnly : ∃ s,
    Script.runFrom .host 1 readOnlySteps smallStart = (.ok (), s) ∧
      (∃ id reason, (s.apply .host .undo).1 = .error (.history (.invalidState id reason))) ∧
      (∃ id reason, (s.apply .host .redo).1 = .error (.history (.invalidState id reason))) := by
  have hok : (Script.runFrom .host 1 readOnlySteps smallStart).1.isOk = true := by decide +kernel
  have hflags : (Script.runFrom .host 1 readOnlySteps smallStart).2.store.currentBuffer?.any
      (fun sb => sb.history.canUndo && sb.history.canRedo && sb.buffer.readOnly) = true := by
    decide +kernel
  rcases hsteps : Script.runFrom .host 1 readOnlySteps smallStart with ⟨e | ⟨⟩, s⟩
  · rw [hsteps] at hok
    cases hok
  · rw [hsteps] at hflags
    obtain ⟨sb, hsb, hflags⟩ := (Option.any_eq_true _ _).1 hflags
    simp only [Bool.and_eq_true] at hflags
    obtain ⟨hundo, hredo⟩ :=
      replay_failures { initialCapacity := 4 } 0 [] .host readOnlySteps s hsteps .host fun _ => rfl
    refine ⟨s, rfl, ?_, ?_⟩
    · exact (hundo.invalidState sb hsb hflags.1.1).2 hflags.2
    · exact (hredo.invalidState sb hsb hflags.1.2).2 hflags.2

end TextStore
