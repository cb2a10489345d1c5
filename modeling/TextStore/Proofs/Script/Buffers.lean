import TextStore.Proofs.Store.Consistency
import TextStore.Script.Run

/-!
# What holds of every buffer of a session

* `Store.Each P` : `P` holds of the text and the history of every stored buffer. Looking after the
  buffers (creating, removing, switching, renaming) keeps this up, and so does an operation on one
  of them that keeps `P` up;
* `HistoryInvariant P` : `P` holds of a new buffer and is kept up by whatever a step other than an
  edit does to one; `BufferInvariant P` : by edits as well;
* `SessionInvariant Q` : `Q` is kept up by every step and by the start of a script, so it holds
  within and after any number of scripts, whether they fail or not (`runFrom`, `runAll`). That `P`
  holds of every buffer is such a `Q` (`BufferInvariant.each`).
-/

namespace TextStore

namespace Store

variable {P : GapBuffer → History → Prop} {st : Store}

/-- `P` holds of every buffer and its history. -/
def Each (P : GapBuffer → History → Prop) (st : Store) : Prop :=
  ∀ sb ∈ st.buffers, P sb.buffer sb.history

theorem Each.find (h : st.Each P) {id : Nat} {sb : StoredBuffer} (hsb : st.find? id = some sb) :
    P sb.buffer sb.history :=
  h sb (List.mem_of_find?_eq_some hsb)

theorem Each.modify (h : st.Each P) (id : Nat) {f : StoredBuffer → StoredBuffer}
    (hf : ∀ sb, P sb.buffer sb.history → P (f sb).buffer (f sb).history) : (st.modify id f).Each P := by
  intro sb hsb
  obtain ⟨old, hold, rfl⟩ := List.mem_map.1 hsb
  split
  · exact hf old (h old hold)
  · exact h old hold

/-! ## Acting on one buffer -/

theorem Each.update {α : Type} (h : st.Each P) (id : Nat) {f : StoredBuffer → α × StoredBuffer}
    (hf : ∀ sb, st.find? id = some sb → P sb.buffer sb.history →
      P (f sb).2.buffer (f sb).2.history) : (st.update id f).2.Each P := by
  unfold Store.update
  split
  · exact h
  · next sb hsb =>
    exact h.modify id fun _ _ => hf sb hsb (h.find hsb)

/-! ## Looking after the buffers -/

theorem Each.add (h : st.Each P)
    (hnew : ∀ mem capacity b settings, GapBuffer.withCapacity mem capacity = .ok b →
      P b { settings }) (mem : Memory) (now : Nat) (name : Option String) :
    (st.add mem now name).2.Each P := by
  obtain ⟨e, hadd⟩ | ⟨b, hadmits, hadd⟩ := st.add_cases mem now name
  · rw [hadd]
    exact h
  · rw [hadd]
    intro sb hsb
    rcases mem_push.1 hsb with hold | rfl
    · exact h sb hold
    · exact hnew _ _ b _ hadmits.region

theorem Each.removeAt (h : st.Each P) (index : Nat) : (st.removeAt index).Each P := by
  unfold Store.removeAt
  split
  · exact h
  · exact fun sb hsb => h sb (List.mem_of_mem_eraseIdx hsb)

theorem Each.deleteName (h : st.Each P) (name : String) : (st.deleteName name).2.Each P := by
  unfold Store.deleteName
  split
  · exact h
  · exact h.removeAt _

theorem Each.discard (h : st.Each P) (id : Nat) : (st.discard id).Each P := by
  unfold Store.discard
  split
  · exact h
  · exact h.removeAt _

theorem Each.removeStale (h : st.Each P) (now maxAge : Nat) :
    (st.removeStale now maxAge).2.Each P := by
  simp only [Store.removeStale]
  generalize (st.buffers.filter (isStale now maxAge)).map StoredBuffer.id = stale
  induction stale generalizing st with
  | nil => exact h
  | cons id rest ih => exact ih (h.discard id)

theorem Each.switchToName (h : st.Each P) (now : Nat) (name : String) :
    (st.switchToName now name).2.Each P := by
  unfold Store.switchToName
  split
  · exact h
  · exact h.modify _ fun _ => id

theorem Each.rename (h : st.Each P) (id : Nat) (name : String) : (st.rename id name).2.Each P := by
  unfold Store.rename
  split
  · exact h
  · split
    · exact h
    · split
      · exact h
      · exact h.modify id fun _ hsb => hsb

end Store

/-! ## Sessions -/

/-- Runs scripts one after the other on one session, whether they fail or not. -/
def Script.runAll (runs : List (Memory × Script)) (s : Session) : Session :=
  runs.foldl (fun s run => (run.2.run run.1 s).2) s

/-- A new store with room for few bytes in each buffer. -/
def smallStart : Session := { store := { settings := { initialCapacity := 4 } } }

/-- `P` holds of a new buffer with its history, and whatever a step other than an edit does to a
buffer keeps it. -/
structure HistoryInvariant (P : GapBuffer → History → Prop) : Prop where
  new : ∀ mem capacity b settings, GapBuffer.withCapacity mem capacity = .ok b → P b { settings }
  beginSequence : ∀ b (h : History) mem now, P b h → P b (h.beginSequence mem now).2
  closeSequence : ∀ b (h : History) mem now, P b h → P b (h.closeSequence mem now).2
  undo : ∀ (sb : StoredBuffer) mem now, P sb.buffer sb.history →
    P (sb.undo mem now).2.buffer (sb.undo mem now).2.history
  redo : ∀ (sb : StoredBuffer) mem now, P sb.buffer sb.history →
    P (sb.redo mem now).2.buffer (sb.redo mem now).2.history
  setReadOnly : ∀ b h on, P b h → P (b.setReadOnly on) h

/-- Edits keep `P` as well, wherever the cursor is. -/
structure BufferInvariant (P : GapBuffer → History → Prop) : Prop extends HistoryInvariant P where
  edit : ∀ (sb : StoredBuffer) mem now cursor start stop text, P sb.buffer sb.history →
    P (sb.edit mem now cursor start stop text).2.buffer
      (sb.edit mem now cursor start stop text).2.history

namespace Session

variable {P : GapBuffer → History → Prop} {s : Session}

@[simp] theorem store_settle {α : Type} (s : Session) (result : Except StoreError α × Store) :
    (s.settle result).2.store = result.2 := by
  unfold settle
  split <;> rfl

@[simp] theorem cursor_settle {α : Type} (s : Session) (result : Except StoreError α × Store) :
    (s.settle result).2.cursor = s.cursor := by
  unfold settle
  split <;> rfl

theorem each_settle {α : Type} (s : Session) {result : Except StoreError α × Store}
    (h : result.2.Each P) : (s.settle result).2.store.Each P := by
  rw [s.store_settle]
  exact h

theorem each_onCurrent {α : Type} (h : s.store.Each P)
    {f : StoredBuffer → Except StepError α × StoredBuffer}
    (hf : ∀ sb, s.store.currentBuffer? = some sb → P sb.buffer sb.history →
      P (f sb).2.buffer (f sb).2.history) : (s.onCurrent f).2.store.Each P := by
  unfold onCurrent
  split
  · exact h
  · next id hid =>
    have hcurrent : s.store.currentBuffer? = s.store.find? id := by
      rw [Store.currentBuffer?, hid, Option.bind_some]
    have hupdate := h.update id (hcurrent ▸ hf)
    split
    · exact h
    · next heq =>
      rw [heq] at hupdate
      exact hupdate

theorem each_moving (h : s.store.Each P) {f : StoredBuffer → Except StepError Nat × StoredBuffer}
    (hf : ∀ sb, s.store.currentBuffer? = some sb → P sb.buffer sb.history →
      P (f sb).2.buffer (f sb).2.history) : (s.moving f).2.store.Each P := by
  have hcurrent := each_onCurrent h hf
  unfold moving
  split
  · next heq =>
    rw [heq] at hcurrent
    exact hcurrent
  · next heq =>
    rw [heq] at hcurrent
    exact hcurrent

theorem store_apply (s : Session) (mem : Memory) (step : Step) :
    (s.apply mem step).2.store = (s.perform mem step).2.store := by
  unfold apply
  split
  · next heq => rw [heq]
  · next heq =>
    rw [heq]
    simp only
    split <;> rfl

end Session

variable {P : GapBuffer → History → Prop} {s : Session}

/-- A step keeps `P` up when an edit of the current buffer with the present cursor does. -/
theorem HistoryInvariant.perform (hP : HistoryInvariant P) (h : s.store.Each P) (mem : Memory)
    (hedit : ∀ sb, s.store.currentBuffer? = some sb → ∀ start stop text, P sb.buffer sb.history →
      P (sb.edit mem s.now s.cursor start stop text).2.buffer
        (sb.edit mem s.now s.cursor start stop text).2.history) (step : Step) :
    (s.perform mem step).2.store.Each P := by
  cases step with
  | create name =>
    refine s.each_settle ?_
    unfold Store.create
    split
    · exact h
    · split
      · exact h
      · exact h.add hP.new mem s.now _
  | scratch =>
    refine s.each_settle ?_
    unfold Store.createScratch
    split
    · exact h
    · exact h.add hP.new mem s.now _
  | switch name =>
    have hswitch := s.each_settle (h.switchToName s.now name)
    simp only [Session.perform]
    split
    · next heq =>
      rw [heq] at hswitch
      exact hswitch
    · next heq =>
      rw [heq] at hswitch
      exact hswitch
  | rename name =>
    simp only [Session.perform]
    split
    · exact h
    · next id _ => exact s.each_settle (h.rename id name)
  | delete name => exact s.each_settle (h.deleteName name)
  | insert pos text => exact Session.each_moving h fun sb hsb => hedit sb hsb _ _ _
  | erase start stop => exact Session.each_moving h fun sb hsb => hedit sb hsb _ _ _
  | replace start stop text => exact Session.each_moving h fun sb hsb => hedit sb hsb _ _ _
  | beginSequence =>
    exact Session.each_onCurrent h fun sb _ => hP.beginSequence sb.buffer sb.history mem s.now
  | endSequence =>
    exact Session.each_onCurrent h fun sb _ => hP.closeSequence sb.buffer sb.history mem s.now
  | undo => exact Session.each_moving h fun sb _ => hP.undo sb mem s.now
  | redo => exact Session.each_moving h fun sb _ => hP.redo sb mem s.now
  | readOnly enabled =>
    exact Session.each_onCurrent h fun sb _ => hP.setReadOnly sb.buffer sb.history enabled
  | cleanup maxAgeMs => exact h.removeStale s.now maxAgeMs
  | pause ms => exact h

/-- `Q` is kept up by every step, and by setting the cursor as a script does when it starts. -/
structure SessionInvariant (Q : Session → Prop) : Prop where
  apply : ∀ {s : Session}, Q s → ∀ mem step, Q (s.apply mem step).2
  start : ∀ {s : Session}, Q s → Q { s with cursor := 0 }

namespace SessionInvariant

variable {Q : Session → Prop}

theorem runFrom (hQ : SessionInvariant Q) (h : Q s) (mem : Memory) (number : Nat)
    (steps : List Step) : Q (Script.runFrom mem number steps s).2 := by
  induction steps generalizing number s with
  | nil => exact h
  | cons step rest ih =>
    have hstep := hQ.apply h mem step
    unfold Script.runFrom
    split
    · next heq =>
      rw [heq] at hstep
      exact hstep
    · next heq =>
      rw [heq] at hstep
      exact ih hstep (number + 1)

theorem run (hQ : SessionInvariant Q) (h : Q s) (mem : Memory) (script : Script) :
    Q (script.run mem s).2 := by
  have hrun := hQ.runFrom (hQ.start h) mem 1 script.steps
  unfold Script.run
  split
  · next heq =>
    rw [heq] at hrun
    exact hrun
  · next heq =>
    rw [heq] at hrun
    exact hrun

theorem runAll (hQ : SessionInvariant Q) (h : Q s) (runs : List (Memory × Script)) :
    Q (Script.runAll runs s) := by
  induction runs generalizing s with
  | nil => exact h
  | cons run rest ih => exact ih (hQ.run h run.1 run.2)

end SessionInvariant

namespace BufferInvariant

theorem each (hP : BufferInvariant P) : SessionInvariant fun s => s.store.Each P where
  apply {s} h mem step := by
    rw [s.store_apply mem step]
    exact hP.perform h mem (fun sb _ _ _ _ => hP.edit sb _ _ _ _ _ _) step
  start h := h

theorem runFrom (hP : BufferInvariant P) (h : s.store.Each P) (mem : Memory) (number : Nat)
    (steps : List Step) : (Script.runFrom mem number steps s).2.store.Each P :=
  hP.each.runFrom h mem number steps

theorem runAll (hP : BufferInvariant P) (h : s.store.Each P) (runs : List (Memory × Script)) :
    (Script.runAll runs s).store.Each P :=
  hP.each.runAll h runs

end BufferInvariant

end TextStore
