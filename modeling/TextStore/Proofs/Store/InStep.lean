import TextStore.Proofs.Store.Replay

/-!
# A buffer in step with its history

* `InStep K limit T b h` : the outline of `h` has a timeline `T` that ends in the text of `b`, made
  of splices within `limit` bytes of which `K` holds; `K` is whatever else is to be known about a
  recorded operation and the texts before and after it;
* `UndoResult`, `RedoResult` : everything an undo or a redo on such a buffer can answer. A stale
  position is not among it, and neither is a refusal of memory by the buffer;
* `InStep.undo`, `InStep.redo` and the lemmas before them : every operation of the history keeps
  the two in step, and so does an edit of the buffer that is recorded.
-/

namespace TextStore

/-- Splices within `limit` of which `K` holds. -/
def Known (K : Transition) (limit : Nat) : Transition :=
  fun op t t' => Turns limit op t t' ∧ K op t t'

/-- The history leads to the text of the buffer. -/
structure InStep (K : Transition) (limit : Nat) (T : Nat → List UInt8) (b : GapBuffer)
    (h : History) : Prop where
  buffer : b.WellFormed
  history : h.WellFormed
  limit_le : limit ≤ b.capacity
  length_le : b.contents.length ≤ limit
  texts : h.outline.Tracks (Known K limit) T b.contents

variable {K K' : Transition} {limit limit' : Nat} {T : Nat → List UInt8} {b b' : GapBuffer}
  {h h' : History} {o : Outline}

/-! ## Replaying on an outline -/

/-- Everything that an undo can answer when nothing is open. -/
inductive UndoResult (o : Outline) (T : Nat → List UInt8) (b : GapBuffer) :
    Except HistoryError Nat × Outline × GapBuffer → Prop
  | nothing (hnone : o.undoable = []) : UndoResult o T b (.error .noUndo, o, b)
  | readOnly {g : Group} {op : Operation} (hg : o.undoable.getLast? = some g)
      (hop : g.operations.getLast? = some op) (hro : b.readOnly = true) :
      UndoResult o T b (.error (.invalidState op.id BufferError.readOnly.message), o, b)
  | back {g : Group} {op : Operation} {b' : GapBuffer} (hg : o.undoable.getLast? = some g)
      (hop : g.operations.head? = some op) (hw : b.readOnly = false)
      (hb' : b.Becomes b' (T (o.undoable.length - 1))) :
      UndoResult o T b (.ok op.cursorBefore,
        { o with undoable := o.undoable.dropLast, redoable := g :: o.redoable }, b')

/-- Everything that a redo can answer when nothing is open. -/
inductive RedoResult (o : Outline) (T : Nat → List UInt8) (b : GapBuffer) :
    Except HistoryError Nat × Outline × GapBuffer → Prop
  | nothing (hnone : o.redoable = []) : RedoResult o T b (.error .noRedo, o, b)
  | readOnly {g : Group} {rest : List Group} {op : Operation} (hg : o.redoable = g :: rest)
      (hop : g.operations.head? = some op) (hro : b.readOnly = true) :
      RedoResult o T b (.error (.invalidState op.id BufferError.readOnly.message), o, b)
  | on {g : Group} {rest : List Group} {op : Operation} {b' : GapBuffer}
      (hg : o.redoable = g :: rest) (hop : g.operations.getLast? = some op)
      (hw : b.readOnly = false) (hb' : b.Becomes b' (T (o.undoable.length + 1))) :
      RedoResult o T b (.ok op.cursorAfter,
        { o with undoable := o.undoable ++ [g], redoable := rest }, b')

theorem Outline.close_of_none (ho : o.opened = none) : o.close = o := by
  rw [close, ho]

theorem undo_result (mem : Memory) (hb : b.WellFormed) (hlimit : limit ≤ b.capacity)
    (ht : o.Tracks (Known K limit) T b.contents) (ho : o.opened = none) :
    UndoResult o T b (o.undo (GapBuffer.replayTarget mem) b) := by
  have hnil := Outline.openOperations_of_none ho
  rw [Outline.undo, Outline.close_of_none ho]
  cases hg : o.undoable.getLast? with
  | none => exact .nothing (List.getLast?_eq_none_iff.1 hg)
  | some g =>
    obtain ⟨hne, hknown⟩ := ht.current hg
    have hleads : Leads (Turns limit) g.operations (T (o.undoable.length - 1)) b.contents := by
      rw [← ht.eq_of_nil hnil]
      exact hknown.mono And.left
    simp only [← History.replay_revertCalls]
    cases hro : b.readOnly with
    | true =>
      have hop := List.getLast?_eq_some_getLast hne
      rw [GapBuffer.replay_revert_readOnly mem hb hro hop hleads]
      exact .readOnly hg hop hro
    | false =>
      obtain ⟨b', heq, hb'⟩ := GapBuffer.replay_revert mem hb hro hlimit hleads
      have hop := List.head?_eq_some_head hne
      rw [heq, hop]
      exact .back hg hop hro hb'

theorem redo_result (mem : Memory) (hb : b.WellFormed) (hlimit : limit ≤ b.capacity)
    (ht : o.Tracks (Known K limit) T b.contents) (ho : o.opened = none) :
    RedoResult o T b (o.redo (GapBuffer.replayTarget mem) b) := by
  have hnil := Outline.openOperations_of_none ho
  rw [Outline.redo, Outline.close_of_none ho]
  cases hg : o.redoable with
  | nil => exact .nothing hg
  | cons g rest =>
    obtain ⟨hne, hknown⟩ := ht.next hg
    have hleads : Leads (Turns limit) g.operations b.contents (T (o.undoable.length + 1)) := by
      rw [← ht.eq_of_nil hnil]
      exact hknown.mono And.left
    simp only [← History.replay_applyCalls]
    cases hro : b.readOnly with
    | true =>
      have hop := List.head?_eq_some_head hne
      rw [GapBuffer.replay_apply_readOnly mem hb hro hop hleads]
      exact .readOnly hg hop hro
    | false =>
      obtain ⟨b', heq, hb'⟩ := GapBuffer.replay_apply mem hb hro hlimit hleads
      have hop := List.getLast?_eq_some_getLast hne
      rw [heq, hop]
      exact .on hg hop hro hb'

/-- What a replay leaves behind is in step along the same timeline. -/
structure Keeps (K : Transition) (limit : Nat) (T : Nat → List UInt8) (b : GapBuffer)
    (r : Except HistoryError Nat × Outline × GapBuffer) : Prop where
  becomes : b.Becomes r.2.2 r.2.2.contents
  length_le : r.2.2.contents.length ≤ limit
  texts : r.2.1.Tracks (Known K limit) T r.2.2.contents

theorem Keeps.inStep {answer : Except HistoryError Nat}
    (hr : Keeps K limit T b (answer, h'.outline, b')) (hlimit : limit ≤ b.capacity)
    (hw' : h'.WellFormed) : InStep K limit T b' h' :=
  ⟨hr.becomes.wellFormed, hw', Nat.le_trans hlimit hr.becomes.capacity, hr.length_le, hr.texts⟩

section Results

variable {r : Except HistoryError Nat × Outline × GapBuffer}

theorem UndoResult.keeps (hr : UndoResult o T b r) (hb : b.WellFormed)
    (hlength : b.contents.length ≤ limit) (ht : o.Tracks (Known K limit) T b.contents)
    (ho : o.opened = none) : Keeps K limit T b r := by
  cases hr with
  | nothing hnone => exact ⟨.refl hb, hlength, ht⟩
  | readOnly hg hop hro => exact ⟨.refl hb, hlength, ht⟩
  | back hg hop hw hb' =>
    obtain ⟨mid, hfirst⟩ := (ht.current hg).2.head hop
    have hcontents := hb'.contents
    have hback := ht.back (Outline.openOperations_of_none ho) hg
    rw [← hcontents] at hb' hfirst hback
    exact ⟨hb', hfirst.1.before, hback⟩

theorem RedoResult.keeps (hr : RedoResult o T b r) (hb : b.WellFormed)
    (hlength : b.contents.length ≤ limit) (ht : o.Tracks (Known K limit) T b.contents)
    (ho : o.opened = none) : Keeps K limit T b r := by
  cases hr with
  | nothing hnone => exact ⟨.refl hb, hlength, ht⟩
  | readOnly hg hop hro => exact ⟨.refl hb, hlength, ht⟩
  | on hg hop hw hb' =>
    obtain ⟨mid, hlast⟩ := (ht.next hg).2.getLast hop
    have hcontents := hb'.contents
    have hon := ht.on (Outline.openOperations_of_none ho) hg
    rw [← hcontents] at hb' hlast hon
    exact ⟨hb', hlast.1.after, hon⟩

end Results

namespace InStep

/-- A new history is in step with any text. -/
theorem new (hb : b.WellFormed) (settings : HistorySettings) :
    InStep K b.capacity (fun _ => b.contents) b { settings } where
  buffer := hb
  history := History.wellFormed_new settings
  limit_le := Nat.le_refl _
  length_le := GapBuffer.length_contents_le hb
  texts := .of_nil rfl (.nil _) rfl rfl

/-! ## The buffer alone -/

/-- The buffer may be laid out anew, as long as its region does not shrink. -/
theorem withBuffer (hs : InStep K limit T b h) (hb' : b'.WellFormed)
    (hcontents : b'.contents = b.contents) (hcap : b.capacity ≤ b'.capacity) : InStep K limit T b' h :=
  ⟨hb', hs.history, Nat.le_trans hs.limit_le hcap, hcontents ▸ hs.length_le, hcontents ▸ hs.texts⟩

theorem becomes (hs : InStep K limit T b h) (hb' : b.Becomes b' b.contents) :
    InStep K limit T b' h :=
  hs.withBuffer hb'.wellFormed hb'.contents hb'.capacity

theorem mono (hK : ∀ {op t t'}, K op t t' → K' op t t') (hs : InStep K limit T b h) :
    InStep K' limit T b h :=
  ⟨hs.buffer, hs.history, hs.limit_le, hs.length_le, hs.texts.mono fun hop => ⟨hop.1, hK hop.2⟩⟩

/-- The limit may be raised, as far as the region goes. -/
theorem raise (hs : InStep K limit T b h) (hle : limit ≤ limit') (hlimit : limit' ≤ b.capacity) :
    InStep K limit' T b h :=
  ⟨hs.buffer, hs.history, hlimit, Nat.le_trans hs.length_le hle,
    hs.texts.mono fun hop => ⟨hop.1.mono hle, hop.2⟩⟩

/-! ## The history alone -/

/-- The history may change to one that leads to the text as well. -/
theorem withHistory (hs : InStep K limit T b h) (hw : h'.WellFormed) {T' : Nat → List UInt8}
    (ht : h'.outline.Tracks (Known K limit) T' b.contents) : InStep K limit T' b h' :=
  ⟨hs.buffer, hw, hs.limit_le, hs.length_le, ht⟩

theorem closeSequence (hs : InStep K limit T b h) (mem : Memory) (now : Nat) :
    ∃ T', InStep K limit T' b (h.closeSequence mem now).2 := by
  rcases History.closeSequence_cases mem now hs.history with ⟨-, -, heq⟩ | ⟨h', heq, hw', houtline⟩
  · rw [heq]
    exact ⟨T, hs⟩
  · obtain ⟨T', -, ht⟩ := hs.texts.close
    rw [heq]
    exact ⟨T', hs.withHistory hw' (houtline ▸ ht)⟩

theorem beginSequence (hs : InStep K limit T b h) (mem : Memory) (now : Nat) :
    ∃ T', InStep K limit T' b (h.beginSequence mem now).2 := by
  rcases History.beginSequence_cases mem now hs.history with ⟨-, -, heq⟩ | ⟨h', heq, hw', houtline⟩
  · rw [heq]
    exact ⟨T, hs⟩
  · obtain ⟨T', -, ht⟩ := hs.texts.close
    rw [heq]
    exact ⟨T', hs.withHistory hw' (houtline ▸ ht.start h.outline.openOperations_close now)⟩

theorem clear (hs : InStep K limit T b h) : InStep K limit (fun _ => b.contents) b h.clear :=
  hs.withHistory h.wellFormed_clear (.clear hs.texts.enabled _)

/-! ## Recording -/

/-- A recorded operation leads on to the text it is recorded for. -/
theorem record_ok (hs : InStep K limit T b h) {mem : Memory} {now position : Nat} {edit : Edit}
    {cursorBefore cursorAfter : Nat}
    (heq : h.record mem now position edit cursorBefore cursorAfter = (.ok (), h'))
    (hb' : b'.WellFormed) (hle : limit ≤ limit') (hlimit : limit' ≤ b'.capacity)
    (hlength : b'.contents.length ≤ limit')
    (hop : (h.outline.newOperation now position edit cursorBefore cursorAfter).Splices b.contents
      b'.contents)
    (hK : K (h.outline.newOperation now position edit cursorBefore cursorAfter) b.contents
      b'.contents) : ∃ T', InStep K limit' T' b' h' := by
  rcases History.record_cases mem now hs.history position edit cursorBefore cursorAfter with
    ⟨n, h₁, heq₁, -⟩ | ⟨h₁, heq₁, hw₁, houtline⟩
  · rw [heq] at heq₁
    cases heq₁
  · rw [heq] at heq₁
    cases heq₁
    have ht : h.outline.Tracks (Known K limit') T b.contents :=
      hs.texts.mono fun hop => ⟨hop.1.mono hle, hop.2⟩
    obtain ⟨T', ht'⟩ := ht.record ⟨⟨hop, Nat.le_trans hs.length_le hle, hlength⟩, hK⟩
    exact ⟨T', hb', hw₁, hlimit, hlength, houtline ▸ ht'⟩

/-- A record that is refused memory leaves the text where it was. -/
theorem record_error (hs : InStep K limit T b h) {mem : Memory} {now position : Nat} {edit : Edit}
    {cursorBefore cursorAfter : Nat} {e : HistoryError}
    (heq : h.record mem now position edit cursorBefore cursorAfter = (.error e, h')) :
    ∃ T', InStep K limit T' b h' := by
  rcases History.record_cases mem now hs.history position edit cursorBefore cursorAfter with
    ⟨n, h₁, heq₁, hw₁, hsame | hopened, -⟩ | ⟨h₁, heq₁, -, -⟩
  · rw [heq] at heq₁
    cases heq₁
    exact ⟨T, hs.withHistory hw₁ (hsame ▸ hs.texts)⟩
  · rw [heq] at heq₁
    cases heq₁
    obtain ⟨T', ht⟩ := hs.texts.ensureOpen now
    exact ⟨T', hs.withHistory hw₁ (hopened ▸ ht)⟩
  · rw [heq] at heq₁
    cases heq₁

/-! ## Replaying -/

/-- An undo is refused memory for closing, or gives one of the results of the closed outline. -/
theorem undo_cases (hs : InStep K limit T b h) (mem : Memory) (now : Nat) :
    (h.openOperations ≠ [] ∧ mem.commit h.openOperations.length = false ∧
      h.undo mem now (GapBuffer.replayTarget mem) b =
        (.error (.allocationFailed h.openOperations.length), h, b)) ∨
    ∃ T' answer h' b', h.undo mem now (GapBuffer.replayTarget mem) b = (answer, h', b') ∧
      (h.openOperations = [] → T' = T) ∧
      UndoResult h.outline.close T' b (answer, h'.outline, b') ∧ InStep K limit T' b' h' := by
  rcases History.outline_undo mem now hs.history (GapBuffer.replayTarget mem) b with hrefused |
    ⟨answer, h', b', heq, hw', hundo⟩
  · exact .inl hrefused
  · obtain ⟨T', hsame, ht⟩ := hs.texts.close
    have hclosed := h.outline.opened_close
    have hresult := undo_result mem hs.buffer hs.limit_le ht hclosed
    rw [Outline.undo_close, hundo] at hresult
    have hkeeps := hresult.keeps hs.buffer hs.length_le ht hclosed
    exact .inr ⟨T', answer, h', b', heq, hsame, hresult, hkeeps.inStep hs.limit_le hw'⟩

/-- A redo is refused memory for closing, or gives one of the results of the closed outline. -/
theorem redo_cases (hs : InStep K limit T b h) (mem : Memory) (now : Nat) :
    (h.openOperations ≠ [] ∧ mem.commit h.openOperations.length = false ∧
      h.redo mem now (GapBuffer.replayTarget mem) b =
        (.error (.allocationFailed h.openOperations.length), h, b)) ∨
    ∃ T' answer h' b', h.redo mem now (GapBuffer.replayTarget mem) b = (answer, h', b') ∧
      (h.openOperations = [] → T' = T) ∧
      RedoResult h.outline.close T' b (answer, h'.outline, b') ∧ InStep K limit T' b' h' := by
  rcases History.outline_redo mem now hs.history (GapBuffer.replayTarget mem) b with hrefused |
    ⟨answer, h', b', heq, hw', hredo⟩
  · exact .inl hrefused
  · obtain ⟨T', hsame, ht⟩ := hs.texts.close
    have hclosed := h.outline.opened_close
    have hresult := redo_result mem hs.buffer hs.limit_le ht hclosed
    rw [Outline.redo_close, hredo] at hresult
    have hkeeps := hresult.keeps hs.buffer hs.length_le ht hclosed
    exact .inr ⟨T', answer, h', b', heq, hsame, hresult, hkeeps.inStep hs.limit_le hw'⟩

theorem undo (hs : InStep K limit T b h) (mem : Memory) (now : Nat) :
    ∃ T', InStep K limit T' (h.undo mem now (GapBuffer.replayTarget mem) b).2.2
      (h.undo mem now (GapBuffer.replayTarget mem) b).2.1 := by
  rcases hs.undo_cases mem now with ⟨-, -, heq⟩ | ⟨T', answer, h', b', heq, -, -, hs'⟩
  · rw [heq]
    exact ⟨T, hs⟩
  · rw [heq]
    exact ⟨T', hs'⟩

theorem redo (hs : InStep K limit T b h) (mem : Memory) (now : Nat) :
    ∃ T', InStep K limit T' (h.redo mem now (GapBuffer.replayTarget mem) b).2.2
      (h.redo mem now (GapBuffer.replayTarget mem) b).2.1 := by
  rcases hs.redo_cases mem now with ⟨-, -, heq⟩ | ⟨T', answer, h', b', heq, -, -, hs'⟩
  · rw [heq]
    exact ⟨T, hs⟩
  · rw [heq]
    exact ⟨T', hs'⟩

end InStep

end TextStore
