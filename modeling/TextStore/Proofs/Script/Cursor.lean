import TextStore.Proofs.Script.Current
import TextStore.Proofs.Script.Replay

/-!
# The cursor of a session

* `Marks` : the cursors of an operation are positions of the texts before and after it. Histories of
  such operations bring back cursors that fit the text they bring back (`undo_lands`, `redo_lands`);
* `Store.Carries` : looking after the buffers leaves the texts of those that stay as they were, so
  the cursor may stay too unless another buffer becomes current;
* `Session.Steady` : the store is consistent, the histories are of such operations, and the cursor is
  a position of the current text. Every step keeps this up (`steady_invariant`);
* `cursor_in_text` : so the cursor is in the current text wherever scripts lead to.
-/

namespace TextStore

/-! ## Recorded cursors -/

/-- The cursors are positions of the text that the operation found and of the one it left. -/
def Marks : Transition := fun op t t' => op.cursorBefore ≤ t.length ∧ op.cursorAfter ≤ t'.length

/-- After the answer the cursor is within `length`; it stays where it is when the answer is an error. -/
inductive Lands {ε : Type} (cursor length : Nat) : Except ε Nat → Prop
  | refused (e : ε) (hcursor : cursor ≤ length) : Lands cursor length (.error e)
  | moved {there : Nat} (hthere : there ≤ length) : Lands cursor length (.ok there)

theorem Lands.mapError {ε ε' : Type} {cursor length : Nat} {answer : Except ε Nat}
    (h : Lands cursor length answer) (f : ε → ε') : Lands cursor length (answer.mapError f) := by
  cases h with
  | refused e hcursor => exact .refused (f e) hcursor
  | moved hthere => exact .moved hthere

section Results

variable {o : Outline} {T : Nat → List UInt8} {b : GapBuffer} {limit cursor : Nat}
  {r : Except HistoryError Nat × Outline × GapBuffer}

/-- The cursor is that before the first operation taken back, which found the text that is back. -/
theorem UndoResult.lands (hr : UndoResult o T b r)
    (ht : r.2.1.Tracks (Known Marks limit) T r.2.2.contents) (hcursor : cursor ≤ b.length) :
    Lands cursor r.2.2.length r.1 := by
  cases hr with
  | nothing hnone => exact .refused _ hcursor
  | readOnly hg hop hro => exact .refused _ hcursor
  | back hg hop hw hb' =>
    -- the group is the next to be made again, so its operations lead on from the text that is back
    obtain ⟨-, hleads⟩ := ht.next rfl
    obtain ⟨mid, -, hbefore, -⟩ := hleads.head hop
    refine .moved ?_
    rw [← GapBuffer.length_contents hb'.wellFormed, hb'.contents, ← List.length_dropLast]
    exact hbefore

/-- The cursor is that after the last operation made again, which left the text that is back. -/
theorem RedoResult.lands (hr : RedoResult o T b r)
    (ht : r.2.1.Tracks (Known Marks limit) T r.2.2.contents) (hcursor : cursor ≤ b.length) :
    Lands cursor r.2.2.length r.1 := by
  cases hr with
  | nothing hnone => exact .refused _ hcursor
  | readOnly hg hop hro => exact .refused _ hcursor
  | on hg hop hw hb' =>
    obtain ⟨-, hleads⟩ := ht.current List.getLast?_concat
    obtain ⟨mid, -, -, hafter⟩ := hleads.getLast hop
    refine .moved ?_
    rw [List.length_append, List.length_singleton] at hafter
    rw [← GapBuffer.length_contents hb'.wellFormed, hb'.contents]
    exact hafter

end Results

/-! ## Where an action leaves the cursor -/

section Actions

variable {sb : StoredBuffer} {cursor : Nat}

theorem undo_lands (hs : Retraces Marks sb.buffer sb.history) (hcursor : cursor ≤ sb.buffer.length)
    (mem : Memory) (now : Nat) :
    Lands cursor (sb.undo mem now).2.buffer.length (sb.undo mem now).1 := by
  obtain ⟨limit, T, hs⟩ := hs
  unfold StoredBuffer.undo
  rcases hs.undo_cases mem now with ⟨-, -, heq⟩ | ⟨T', answer, h', b', heq, -, hresult, hs'⟩
  · rw [heq]
    exact .refused _ hcursor
  · rw [heq]
    exact hresult.lands hs'.texts hcursor

theorem redo_lands (hs : Retraces Marks sb.buffer sb.history) (hcursor : cursor ≤ sb.buffer.length)
    (mem : Memory) (now : Nat) :
    Lands cursor (sb.redo mem now).2.buffer.length (sb.redo mem now).1 := by
  obtain ⟨limit, T, hs⟩ := hs
  unfold StoredBuffer.redo
  rcases hs.redo_cases mem now with ⟨-, -, heq⟩ | ⟨T', answer, h', b', heq, -, hresult, hs'⟩
  · rw [heq]
    exact .refused _ hcursor
  · rw [heq]
    exact hresult.lands hs'.texts hcursor

/-- An edit puts the cursor behind the text that it inserted. -/
theorem edit_lands (hb : sb.buffer.WellFormed) (hcursor : cursor ≤ sb.buffer.length) (mem : Memory)
    (now start stop : Nat) (text : List UInt8) :
    Lands cursor (sb.edit mem now cursor start stop text).2.buffer.length
      (sb.edit mem now cursor start stop text).1 := by
  rcases sb.edit_cases mem now hb cursor start stop text with
    ⟨e, b', h', heq, hb', -⟩ | ⟨hle, hstop, edit, b', h', heq, -, -, hb', -⟩
  · rw [heq]
    refine .refused e ?_
    rw [← GapBuffer.length_contents hb'.wellFormed, hb'.contents, GapBuffer.length_contents hb]
    exact hcursor
  · have hhead := GapBuffer.length_take_contents hb (Nat.le_trans hle hstop)
    rw [heq]
    refine .moved ?_
    rw [← GapBuffer.length_contents hb'.wellFormed, hb'.contents, List.length_append,
      List.length_append, hhead]
    exact Nat.le_add_right _ _

theorem onHistory_lands (hcursor : cursor ≤ sb.buffer.length)
    (f : History → Except HistoryError Unit × History) :
    Lands cursor (Action.onHistory cursor f sb).2.buffer.length (Action.onHistory cursor f sb).1 := by
  unfold Action.onHistory
  rcases f sb.history with ⟨e | ⟨⟩, h'⟩
  · exact .refused _ hcursor
  · exact .moved hcursor

theorem action_lands (hs : Retraces Marks sb.buffer sb.history)
    (hcursor : cursor ≤ sb.buffer.length) {mem : Memory} {now : Nat} {step : Step} {f : Action}
    (hf : step.action? mem now cursor = some f) : Lands cursor (f sb).2.buffer.length (f sb).1 := by
  rcases Step.action?_cases hf with ⟨start, stop, text, rfl⟩ | ⟨g, rfl⟩ | ⟨on, rfl⟩ | rfl | rfl
  · obtain ⟨limit, T, hs⟩ := hs
    exact (edit_lands hs.buffer hcursor mem now start stop _).mapError _
  · exact onHistory_lands hcursor g
  · exact .moved hcursor
  · exact (undo_lands hs hcursor mem now).mapError _
  · exact (redo_lands hs hcursor mem now).mapError _

/-- An edit from a cursor within the text records cursors within the texts. -/
theorem retraces_edit (hs : Retraces Marks sb.buffer sb.history) (hcursor : cursor ≤ sb.buffer.length)
    (mem : Memory) (now start stop : Nat) (text : List UInt8) :
    Retraces Marks (sb.edit mem now cursor start stop text).2.buffer
      (sb.edit mem now cursor start stop text).2.history := by
  obtain ⟨limit, T, hs⟩ := hs
  refine hs.edit mem now cursor start stop text fun hle hstop edit => ⟨?_, ?_⟩
  · show cursor ≤ sb.buffer.contents.length
    rw [GapBuffer.length_contents hs.buffer]
    exact hcursor
  · show start + text.length ≤ _
    rw [List.length_append, List.length_append,
      GapBuffer.length_take_contents hs.buffer (Nat.le_trans hle hstop)]
    exact Nat.le_add_right _ _

end Actions

/-! ## Looking after the buffers -/

namespace Store

variable {st st' : Store}

/-- Each buffer of `st'` that is not new has the text that it has in `st`. -/
def Carries (st st' : Store) : Prop :=
  ∀ sb' ∈ st'.buffers, sb'.id < st.nextId → ∃ sb ∈ st.buffers, sb.id = sb'.id ∧ sb.buffer = sb'.buffer

theorem Carries.refl (st : Store) : st.Carries st := fun sb hsb _ => ⟨sb, hsb, rfl, rfl⟩

theorem Removes.carries (h : st.Removes st') : st.Carries st' :=
  fun sb hsb _ => ⟨sb, h.buffers.subset hsb, rfl, rfl⟩

theorem carries_modify (st : Store) (id : Nat) {f : StoredBuffer → StoredBuffer}
    (hid : ∀ sb, (f sb).id = sb.id) (hbuffer : ∀ sb, (f sb).buffer = sb.buffer)
    (current : Option Nat) (count : Nat) :
    st.Carries { st.modify id f with current, scratchCount := count } := by
  intro sb' hsb' _
  obtain ⟨sb, hsb, rfl⟩ := List.mem_map.1 hsb'
  refine ⟨sb, hsb, ?_⟩
  split
  · exact ⟨(hid sb).symm, (hbuffer sb).symm⟩
  · exact ⟨rfl, rfl⟩

theorem carries_add (mem : Memory) (now : Nat) (st : Store) (name : Option String) :
    st.Carries (st.add mem now name).2 := by
  obtain ⟨e, hadd⟩ | ⟨b, -, hadd⟩ := st.add_cases mem now name
  · rw [hadd]
    exact .refl st
  rw [hadd]
  intro sb' hsb' hlt
  rcases mem_push.1 hsb' with hold | rfl
  · exact ⟨sb', hold, rfl, rfl⟩
  · exact absurd hlt (Nat.lt_irrefl _)

theorem carries_create (mem : Memory) (now : Nat) (st : Store) (name : String) :
    st.Carries (st.create mem now name).2 := by
  unfold create
  split
  · exact .refl st
  split
  · exact .refl st
  · exact carries_add mem now st name

theorem carries_createScratch (mem : Memory) (now : Nat) (st : Store) :
    st.Carries (st.createScratch mem now).2 := by
  unfold createScratch
  split
  · exact .refl st
  · exact carries_add mem now st none

theorem carries_rename (st : Store) (id : Nat) (name : String) :
    st.Carries (st.rename id name).2 := by
  unfold rename
  split
  · exact .refl st
  split
  · exact .refl st
  split
  · exact .refl st
  · exact st.carries_modify _ (by intro sb; rfl) (by intro sb; rfl) _ _

/-- The current text is the same while the same buffer is current. -/
theorem Carries.endOfCurrent_eq (h : st.Carries st') (hc : st.Consistent) (hc' : st'.Consistent)
    (hcurrent : st'.current = st.current) : Session.endOfCurrent st' = Session.endOfCurrent st := by
  cases hid : st'.current with
  | none =>
    rw [hid] at hcurrent
    simp only [Session.endOfCurrent, currentBuffer?, hid, ← hcurrent, Option.bind_none]
  | some id =>
    obtain ⟨sb', hsb', rfl⟩ := List.mem_map.1 (hc'.current_mem id hid)
    rw [hid] at hcurrent
    have hlt := hc.numbered.below _ (hc.current_mem _ hcurrent.symm)
    obtain ⟨sb, hsb, heq, hbuffer⟩ := h sb' hsb' hlt
    rw [← heq] at hcurrent
    simp only [Session.endOfCurrent, hc'.currentBuffer?_eq hsb' hid,
      hc.currentBuffer?_eq hsb hcurrent.symm, hbuffer]

end Store

/-! ## Sessions -/

namespace Session

variable {s : Session}

/-- Everything that keeps the cursor in the text. -/
structure Steady (s : Session) : Prop where
  store : s.store.Consistent
  buffers : s.store.Each (Retraces Marks)
  cursor : s.cursor ≤ endOfCurrent s.store

theorem Steady.current (hs : s.Steady) {sb : StoredBuffer} (hsb : s.store.currentBuffer? = some sb) :
    Retraces Marks sb.buffer sb.history ∧ s.cursor ≤ sb.buffer.length := by
  have hcursor := hs.cursor
  rw [endOfCurrent, hsb] at hcursor
  exact ⟨hs.buffers sb (Store.mem_of_currentBuffer? hsb), hcursor⟩

theorem cursor_moving (hcursor : s.cursor ≤ endOfCurrent s.store) {f : Action}
    (hf : ∀ sb, s.store.currentBuffer? = some sb →
      Lands s.cursor (f sb).2.buffer.length (f sb).1) :
    (s.moving f).2.cursor ≤ endOfCurrent (s.moving f).2.store := by
  cases hsb : s.store.currentBuffer? with
  | none =>
    rw [moving_of_none hsb]
    exact hcursor
  | some sb =>
    have hlands := hf sb hsb
    have hput := currentBuffer?_put hsb (f sb).2
    rw [moving_of_some hsb]
    rcases hfsb : f sb with ⟨answer, sb'⟩
    rw [hfsb] at hlands hput
    cases hlands with
    | refused e hcursor =>
      show s.cursor ≤ endOfCurrent (s.put sb.id sb').store
      rw [endOfCurrent, hput]
      exact hcursor
    | @moved there hthere =>
      show there ≤ endOfCurrent (s.put sb.id sb').store
      rw [endOfCurrent, hput]
      exact hthere

/-- A step on the store leaves the cursor alone, or puts it at the end of the current text. -/
theorem cursor_perform {mem : Memory} {step : Step}
    (hnone : step.action? mem s.now s.cursor = none) :
    s.store.Carries (s.perform mem step).2.store ∧ (s.perform mem step).2.cursor = s.cursor ∨
      (s.perform mem step).2.cursor = endOfCurrent (s.perform mem step).2.store := by
  cases step with
  | create name =>
    left
    simpa [perform] using Store.carries_create mem s.now s.store name
  | scratch =>
    left
    simpa [perform] using Store.carries_createScratch mem s.now s.store
  | switch name =>
    simp only [perform]
    split
    · next heq =>
      left
      have hsame := settle_of_error (fun _ => Store.switchToName_of_error) (congrArg Prod.fst heq)
      rw [heq] at hsame
      rw [hsame]
      exact ⟨.refl _, rfl⟩
    · exact .inr rfl
  | rename name =>
    left
    simp only [perform]
    split
    · exact ⟨.refl _, rfl⟩
    · next id _ => simpa using s.store.carries_rename id name
  | delete name =>
    left
    simpa [perform] using (s.store.removes_deleteName name).carries
  | cleanup maxAgeMs => exact .inl ⟨(s.store.removes_removeStale s.now maxAgeMs).carries, rfl⟩
  | pause ms => exact .inl ⟨.refl _, rfl⟩
  | _ => cases hnone

theorem cursor_apply (hc : s.store.Consistent) (hcursor : s.cursor ≤ endOfCurrent s.store)
    {mem : Memory} {step : Step} (hnone : step.action? mem s.now s.cursor = none) :
    (s.apply mem step).2.cursor ≤ endOfCurrent (s.apply mem step).2.store := by
  have hc' := consistent_perform hc mem step
  have hperform := cursor_perform hnone
  unfold apply
  rcases heq : s.perform mem step with ⟨e | ⟨⟩, s'⟩
  · have hsame := perform_of_error hnone (congrArg Prod.fst heq)
    rw [heq] at hsame
    rw [hsame]
    exact hcursor
  · rw [heq] at hc' hperform
    simp only
    split
    · -- the same buffer is current: its text was not touched, or the step was a switch
      next hcurrent =>
      rcases hperform with ⟨hcarries, hkept⟩ | hend
      · rw [hcarries.endOfCurrent_eq hc hc' hcurrent, hkept]
        exact hcursor
      · exact Nat.le_of_eq hend
    · exact Nat.le_refl _

theorem steady_invariant : SessionInvariant Steady where
  apply {s} hs mem step := by
    have hstore := consistent_invariant.apply hs.store mem step
    refine ⟨hstore, ?_, ?_⟩
    · rw [s.store_apply mem step]
      refine (retraces_invariant Marks).perform hs.buffers mem ?_ step
      intro sb hsb start stop text hsb'
      exact retraces_edit hsb' (hs.current hsb).2 mem s.now start stop text
    · cases hf : step.action? mem s.now s.cursor with
      | some f =>
        rw [apply_of_action? hf]
        exact cursor_moving hs.cursor fun sb hsb =>
          action_lands (hs.current hsb).1 (hs.current hsb).2 hf
      | none => exact cursor_apply hs.store hs.cursor hf
  start {s} hs := ⟨hs.store, hs.buffers, Nat.zero_le _⟩

theorem steady_new (settings : Settings) (now : Nat) : Steady { store := { settings }, now } where
  store := Store.consistent_new settings
  buffers _ hsb := by cases hsb
  cursor := Nat.zero_le _

structure CursorInText (s : Session) : Prop where
  within : ∀ sb, s.store.currentBuffer? = some sb → s.cursor ≤ sb.buffer.length
  zero : s.store.currentBuffer? = none → s.cursor = 0

theorem Steady.cursorInText (hs : s.Steady) : s.CursorInText := by
  refine ⟨fun sb hsb => (hs.current hsb).2, fun hnone => ?_⟩
  have hcursor := hs.cursor
  rw [endOfCurrent, hnone] at hcursor
  exact Nat.le_zero.1 hcursor

theorem Steady.replayed (hs : s.Steady) {sb : StoredBuffer} (hsb : sb ∈ s.store.buffers)
    {mem : Memory} {now cursor : Nat} {sb' : StoredBuffer}
    (hok : sb.undo mem now = (.ok cursor, sb') ∨ sb.redo mem now = (.ok cursor, sb')) :
    cursor ≤ sb'.buffer.length := by
  have hsb := hs.buffers sb hsb
  have hundo := undo_lands hsb (Nat.zero_le _) mem now
  have hredo := redo_lands hsb (Nat.zero_le _) mem now
  rcases hok with heq | heq
  · rw [heq] at hundo
    cases hundo with
    | moved hthere => exact hthere
  · rw [heq] at hredo
    cases hredo with
    | moved hthere => exact hthere

end Session

theorem Script.summary_cursor {mem : Memory} {script : Script} {s s' : Session} {summary : Summary}
    (hrun : script.run mem s = (.ok summary, s')) : summary.cursor = s'.cursor := by
  unfold Script.run at hrun
  split at hrun
  · cases hrun
  · cases hrun
    rfl

/-- Whatever scripts were run on a new store and whatever steps the present one has made, the last of
them accepted or not: the cursor is in the current text, now and after any further step. An undo or
a redo of any buffer answers a cursor in the text that it leaves, and a script reports one in the
text that is current at its end. -/
theorem cursor_in_text (settings : Settings) (now : Nat) (runs : List (Memory × Script))
    (mem : Memory) (steps : List Step) (answer : Except Failure Unit) (s : Session)
    (hsteps : Script.runFrom mem 1 steps
      { Script.runAll runs { store := { settings }, now } with cursor := 0 } = (answer, s)) :
    s.CursorInText ∧
      (∀ mem' step, (s.apply mem' step).2.CursorInText) ∧
      (∀ sb ∈ s.store.buffers, ∀ mem' now' cursor sb',
        sb.undo mem' now' = (.ok cursor, sb') ∨ sb.redo mem' now' = (.ok cursor, sb') →
          cursor ≤ sb'.buffer.length) ∧
      ∀ mem' (script : Script) summary s', script.run mem' s = (.ok summary, s') →
        summary.cursor = s'.cursor ∧ s'.CursorInText := by
  have hstart := Session.steady_invariant.runAll (Session.steady_new settings now) runs
  have hs := Session.steady_invariant.runFrom (Session.steady_invariant.start hstart) mem 1 steps
  rw [hsteps] at hs
  refine ⟨hs.cursorInText, ?_, ?_, ?_⟩
  · intro mem' step
    exact (Session.steady_invariant.apply hs mem' step).cursorInText
  · intro sb hsb mem' now' cursor sb' hok
    exact hs.replayed hsb hok
  · intro mem' script summary s' hrun
    have hs' := Session.steady_invariant.run hs mem' script
    rw [hrun] at hs'
    exact ⟨Script.summary_cursor hrun, hs'.cursorInText⟩

/-- An undo in one buffer brings back a cursor from before another buffer was edited. -/
def returningSteps : List Step :=
  [.create "a", .insert 0 "abc", .endSequence, .erase 1 3, .create "b", .switch "b", .insert 0 "xy",
    .switch "a", .undo]

theorem cursor_in_text_returning : ∃ s,
    Script.runFrom .host 1 returningSteps smallStart = (.ok (), s) ∧ s.cursor = 3 ∧ s.CursorInText := by
  have hok : (Script.runFrom .host 1 returningSteps smallStart).1.isOk = true := by decide +kernel
  have hcursor : (Script.runFrom .host 1 returningSteps smallStart).2.cursor = 3 := by
    decide +kernel
  rcases hsteps : Script.runFrom .host 1 returningSteps smallStart with ⟨e | ⟨⟩, s⟩
  · rw [hsteps] at hok
    cases hok
  · rw [hsteps] at hcursor
    refine ⟨s, rfl, hcursor, ?_⟩
    exact (cursor_in_text { initialCapacity := 4 } 0 [] .host returningSteps _ s hsteps).1

end TextStore
