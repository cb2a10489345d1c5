import TextStore.Proofs.Script.Buffers
import TextStore.Proofs.Store.Lookup

/-!
# Steps on the current buffer

* `Action`, `Step.action?` : what a step does to the current buffer, when that is all it does. Such a
  step acts on the session as `moving_of_some` says (`apply_of_action?`);
* `consistent_invariant` : the store of a session stays consistent, whatever scripts do to it.
-/

namespace TextStore

/-- `sb` with the text and the history of `sb'`. -/
def StoredBuffer.adopt (sb sb' : StoredBuffer) : StoredBuffer :=
  { sb with buffer := sb'.buffer, history := sb'.history }

/-! ## Acting on the current buffer -/

/-- An operation on a buffer that answers where the cursor is then. -/
abbrev Action := StoredBuffer → Except StepError Nat × StoredBuffer

namespace Session

variable {s : Session} {sb : StoredBuffer}

/-- The buffer with this id takes over the text and the history of `sb`. -/
def put (s : Session) (id : Nat) (sb : StoredBuffer) : Session :=
  { s with store := s.store.modify id (·.adopt sb) }

theorem currentBuffer?_put (hsb : s.store.currentBuffer? = some sb) (sb' : StoredBuffer) :
    (s.put sb.id sb').store.currentBuffer? = some (sb.adopt sb') := by
  have hmodify := s.store.currentBuffer?_modify sb.id (f := (·.adopt sb')) fun _ => rfl
  rw [hsb, Option.map_some, if_pos rfl] at hmodify
  exact hmodify

theorem onCurrent_of_none {α : Type} (hnone : s.store.currentBuffer? = none)
    (f : StoredBuffer → Except StepError α × StoredBuffer) :
    s.onCurrent f = (.error .noCurrentBuffer, s) := by
  unfold onCurrent
  unfold Store.currentBuffer? at hnone
  cases hid : s.store.current with
  | none => rfl
  | some id =>
    rw [hid, Option.bind_some] at hnone
    simp only [Store.update, hnone]

theorem onCurrent_of_some {α : Type} (hsb : s.store.currentBuffer? = some sb)
    (f : StoredBuffer → Except StepError α × StoredBuffer) :
    s.onCurrent f = ((f sb).1, s.put sb.id (f sb).2) := by
  obtain ⟨id, hid, hfind⟩ := Option.bind_eq_some_iff.1 hsb
  obtain ⟨rfl, -⟩ := Store.find?_split hfind
  simp only [onCurrent, hid, Store.update, hfind]
  rfl

theorem moving_of_none (hnone : s.store.currentBuffer? = none) (f : Action) :
    s.moving f = (.error .noCurrentBuffer, s) := by
  simp only [moving, onCurrent_of_none hnone]

theorem moving_of_some (hsb : s.store.currentBuffer? = some sb) (f : Action) :
    s.moving f =
      match f sb with
      | (.error e, sb') => (.error e, s.put sb.id sb')
      | (.ok cursor, sb') => (.ok (), { s.put sb.id sb' with cursor }) := by
  simp only [moving, onCurrent_of_some hsb]
  rcases f sb with ⟨e | cursor, sb'⟩ <;> rfl

/-- An operation that leaves the cursor alone moves it to where it is. -/
theorem onCurrent_eq_moving (s : Session) (f : StoredBuffer → Except StepError Unit × StoredBuffer) :
    s.onCurrent f = s.moving fun sb => ((f sb).1.map fun _ => s.cursor, (f sb).2) := by
  cases hcurrent : s.store.currentBuffer? with
  | none => rw [onCurrent_of_none hcurrent, moving_of_none hcurrent]
  | some sb =>
    rw [onCurrent_of_some hcurrent, moving_of_some hcurrent]
    rcases f sb with ⟨e | ⟨⟩, sb'⟩ <;> rfl

theorem current_moving (s : Session) (f : Action) :
    (s.moving f).2.store.current = s.store.current := by
  cases hcurrent : s.store.currentBuffer? with
  | none => rw [moving_of_none hcurrent]
  | some sb =>
    rw [moving_of_some hcurrent]
    rcases f sb with ⟨e | cursor, sb'⟩ <;> rfl

end Session

/-! ## Steps as actions -/

namespace Action

variable (mem : Memory) (now cursor : Nat)

def edit (start stop : Nat) (text : String) : Action := fun sb =>
  match sb.edit mem now cursor start stop (Utf8.encode text) with
  | (answer, sb') => (answer.mapError .ofEdit, sb')

def replay (f : StoredBuffer → Except HistoryError Nat × StoredBuffer) : Action := fun sb =>
  match f sb with
  | (answer, sb') => (answer.mapError .history, sb')

/-- The cursor stays where it is. -/
def onHistory (f : History → Except HistoryError Unit × History) : Action := fun sb =>
  match f sb.history with
  | (answer, history) => ((answer.mapError .history).map fun _ => cursor, { sb with history })

def setReadOnly (on : Bool) : Action := fun sb => (.ok cursor, sb.setReadOnly on)

end Action

/-- What the step does to the current buffer, if this is a step that acts on nothing else. -/
def Step.action? (mem : Memory) (now cursor : Nat) : Step → Option Action
  | insert pos text => some (.edit mem now cursor pos pos text)
  | erase start stop => some (.edit mem now cursor start stop "")
  | replace start stop text => some (.edit mem now cursor start stop text)
  | beginSequence => some (.onHistory cursor fun h => h.beginSequence mem now)
  | endSequence => some (.onHistory cursor fun h => h.closeSequence mem now)
  | undo => some (.replay fun sb => sb.undo mem now)
  | redo => some (.replay fun sb => sb.redo mem now)
  | readOnly enabled => some (.setReadOnly cursor enabled)
  | _ => none

/-- There are five kinds of actions. -/
theorem Step.action?_cases {mem : Memory} {now cursor : Nat} {step : Step} {f : Action}
    (hf : step.action? mem now cursor = some f) :
    (∃ start stop text, f = .edit mem now cursor start stop text) ∨
      (∃ g, f = .onHistory cursor g) ∨ (∃ on, f = .setReadOnly cursor on) ∨
      (f = .replay fun sb => sb.undo mem now) ∨ f = .replay fun sb => sb.redo mem now := by
  cases step with
  | insert pos text => cases hf; exact .inl ⟨pos, pos, text, rfl⟩
  | erase start stop => cases hf; exact .inl ⟨start, stop, "", rfl⟩
  | replace start stop text => cases hf; exact .inl ⟨start, stop, text, rfl⟩
  | beginSequence => cases hf; exact .inr (.inl ⟨_, rfl⟩)
  | endSequence => cases hf; exact .inr (.inl ⟨_, rfl⟩)
  | readOnly enabled => cases hf; exact .inr (.inr (.inl ⟨enabled, rfl⟩))
  | undo => cases hf; exact .inr (.inr (.inr (.inl rfl)))
  | redo => cases hf; exact .inr (.inr (.inr (.inr rfl)))
  | _ => cases hf

namespace Session

variable {s : Session}

theorem perform_of_action? {mem : Memory} {step : Step} {f : Action}
    (hf : step.action? mem s.now s.cursor = some f) : s.perform mem step = s.moving f := by
  cases step with
  | insert pos text => cases hf; rfl
  | erase start stop => cases hf; rfl
  | replace start stop text => cases hf; rfl
  | beginSequence => cases hf; exact s.onCurrent_eq_moving _
  | endSequence => cases hf; exact s.onCurrent_eq_moving _
  | undo => cases hf; rfl
  | redo => cases hf; rfl
  | readOnly enabled => cases hf; exact s.onCurrent_eq_moving _
  | _ => cases hf

theorem apply_of_action? {mem : Memory} {step : Step} {f : Action}
    (hf : step.action? mem s.now s.cursor = some f) : s.apply mem step = s.moving f := by
  have hcurrent := s.current_moving f
  unfold apply
  rw [perform_of_action? hf]
  rcases hmoving : s.moving f with ⟨e | ⟨⟩, s'⟩
  · rfl
  · rw [hmoving] at hcurrent
    simp only [if_pos hcurrent]

/-! ## Steps on the store -/

theorem settle_of_error {α : Type} {result : Except StoreError α × Store}
    (hresult : ∀ e, result.1 = .error e → result.2 = s.store) {e : StepError}
    (he : (s.settle result).1 = .error e) : (s.settle result).2 = s := by
  unfold settle at he ⊢
  rcases result with ⟨e' | answer, st'⟩
  · obtain rfl : st' = s.store := hresult e' rfl
    rfl
  · cases he

/-- A step on the store that fails changes nothing. -/
theorem perform_of_error {mem : Memory} {step : Step}
    (hnone : step.action? mem s.now s.cursor = none) {e : StepError}
    (he : (s.perform mem step).1 = .error e) : (s.perform mem step).2 = s := by
  cases step with
  | create name => exact settle_of_error (fun _ => (Store.issues_create _ _ _ _).of_error) he
  | scratch => exact settle_of_error (fun _ => (Store.issues_createScratch _ _ _).of_error) he
  | switch name =>
    simp only [perform] at he ⊢
    rcases hsettle : s.settle (s.store.switchToName s.now name) with ⟨e' | ⟨⟩, s'⟩
    · have hsame := settle_of_error (fun _ => Store.switchToName_of_error) (congrArg Prod.fst hsettle)
      rw [hsettle] at hsame
      exact hsame
    · rw [hsettle] at he
      cases he
  | rename name =>
    simp only [perform] at he ⊢
    split at he
    · rfl
    · next id _ => exact settle_of_error (fun _ => Store.rename_of_error) he
  | delete name => exact settle_of_error (fun _ => Store.deleteName_of_error) he
  | cleanup maxAgeMs => cases he
  | pause ms => cases he
  | _ => cases hnone

/-! ## Consistent stores -/

theorem consistent_moving (hc : s.store.Consistent) (f : Action) :
    (s.moving f).2.store.Consistent := by
  cases hcurrent : s.store.currentBuffer? with
  | none =>
    rw [moving_of_none hcurrent]
    exact hc
  | some sb =>
    have hput (sb' : StoredBuffer) : (s.put sb.id sb').store.Consistent := by
      have hmem := Store.mem_of_currentBuffer? hcurrent
      have hmodify := hc.modify (hc.find?_eq hmem) (f := (·.adopt sb')) rfl rfl rfl
        (Store.mem_ids hmem)
      rw [← Store.current_of_currentBuffer? hcurrent] at hmodify
      exact hmodify
    rw [moving_of_some hcurrent]
    rcases f sb with ⟨e | cursor, sb'⟩ <;> exact hput sb'

theorem consistent_perform (hc : s.store.Consistent) (mem : Memory) (step : Step) :
    (s.perform mem step).2.store.Consistent := by
  cases hf : step.action? mem s.now s.cursor with
  | some f =>
    rw [perform_of_action? hf]
    exact consistent_moving hc f
  | none =>
    cases step with
    | create name => simpa [perform] using hc.create mem s.now name
    | scratch => simpa [perform] using hc.createScratch mem s.now
    | switch name =>
      have hswitch := hc.switchToName s.now name
      rw [← s.store_settle] at hswitch
      simp only [perform]
      split
      · next heq =>
        rw [heq] at hswitch
        exact hswitch
      · next heq =>
        rw [heq] at hswitch
        exact hswitch
    | rename name =>
      simp only [perform]
      split
      · exact hc
      · next id _ => simpa using hc.rename id name
    | delete name => simpa [perform] using hc.deleteName name
    | cleanup maxAgeMs => exact hc.removeStale s.now maxAgeMs
    | pause ms => exact hc
    | _ => cases hf

theorem consistent_invariant : SessionInvariant fun s => s.store.Consistent where
  apply {s} hc mem step := by
    rw [s.store_apply mem step]
    exact consistent_perform hc mem step
  start hc := hc

end Session

end TextStore
