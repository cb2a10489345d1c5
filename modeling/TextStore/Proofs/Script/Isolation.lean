import TextStore.Proofs.Script.Current

/-!
# One buffer of a script on its own

* `Script.restrict` : the steps of a run that concern the buffer of one name. What is done while
  another buffer is current is left out, and so are the other buffers;
* `Action.Local` : an action reads and changes nothing of a buffer but its text and its history;
* `Mirrors` : a session with only the one buffer has the same text and history in it as the session
  with all buffers, and the same cursor whenever the buffer is current. A step that is kept is
  accepted by both sessions (`Mirrors.kept`), one that is left out changes nothing (`Mirrors.dropped`);
* `restrict_runs` : so the steps that concern a buffer run on their own and leave the same buffer.
-/

namespace TextStore

/-- Whether the step neither renames nor removes a buffer. -/
def Step.isPlain : Step → Bool
  | rename _ | delete _ | cleanup _ => false
  | _ => true

/-- Whether the step concerns the buffer `name`, which is the current one or not. -/
def Step.concerns (name : String) (current : Bool) : Step → Bool
  | create other => other == name
  | switch other => other == name
  | pause _ => true
  | insert _ _ | erase _ _ | replace _ _ _ => current
  | beginSequence | endSequence | undo | redo => current
  | readOnly _ => current
  | scratch | rename _ | delete _ | cleanup _ => false

def Step.creates (name : String) : Step → Bool
  | create other => other == name
  | _ => false

def Store.isCurrentName (st : Store) (name : String) : Bool :=
  st.currentBuffer?.any fun sb => sb.name == some name

/-- The steps of a run that concern the buffer `name`. -/
def Script.restrict (mem : Memory) (name : String) : List Step → Session → List Step
  | [], _ => []
  | step :: rest, s =>
    let kept := restrict mem name rest (s.apply mem step).2
    if step.concerns name (s.store.isCurrentName name) then step :: kept else kept

/-! ## Actions -/

/-- The action reads and changes the text and the history alone. -/
def Action.Local (f : Action) : Prop :=
  ∀ sb tb : StoredBuffer, f (tb.adopt sb) = ((f sb).1, tb.adopt (f sb).2)

namespace StoredBuffer

variable (sb tb : StoredBuffer)

theorem splice_adopt (mem : Memory) (start stop : Nat) (text : List UInt8) :
    (tb.adopt sb).splice mem start stop text =
      ((sb.splice mem start stop text).1, tb.adopt (sb.splice mem start stop text).2) := by
  simp only [splice, adopt]
  rcases sb.buffer.extract mem start stop with e | removed
  · rfl
  rcases hdelete : sb.buffer.delete start stop with ⟨e | ⟨⟩, b₁⟩
  · rfl
  simp only
  rcases b₁.insert mem start text with ⟨e | ⟨⟩, b₂⟩
  · simp only
    rcases b₂.insert mem start removed with ⟨e' | ⟨⟩, b₃⟩ <;> rfl
  · rfl

theorem unsplice_adopt (mem : Memory) (start : Nat) (removed inserted : List UInt8) :
    (tb.adopt sb).unsplice mem start removed inserted =
      ((sb.unsplice mem start removed inserted).1,
        tb.adopt (sb.unsplice mem start removed inserted).2) := by
  simp only [unsplice, adopt]
  rcases sb.buffer.delete start (start + inserted.length) with ⟨e | ⟨⟩, b₁⟩ <;> rfl

theorem recordSplice_adopt (mem : Memory) (now cursor start : Nat) (removed text : List UInt8) :
    (tb.adopt sb).recordSplice mem now cursor start removed text =
      ((sb.recordSplice mem now cursor start removed text).1,
        tb.adopt (sb.recordSplice mem now cursor start removed text).2) := rfl

theorem edit_adopt (mem : Memory) (now cursor start stop : Nat) (text : List UInt8) :
    (tb.adopt sb).edit mem now cursor start stop text =
      ((sb.edit mem now cursor start stop text).1,
        tb.adopt (sb.edit mem now cursor start stop text).2) := by
  simp only [edit, splice_adopt]
  rcases sb.splice mem start stop text with ⟨e | removed, sb₁⟩
  · rfl
  simp only [recordSplice_adopt]
  rcases sb₁.recordSplice mem now cursor start removed text with ⟨e | ⟨⟩, sb₂⟩
  · simp only [unsplice_adopt]
    rcases sb₂.unsplice mem start removed text with ⟨e' | ⟨⟩, sb₃⟩ <;> rfl
  · rfl

end StoredBuffer

theorem action_local {mem : Memory} {now cursor : Nat} {step : Step} {f : Action}
    (hf : step.action? mem now cursor = some f) : f.Local := by
  intro sb tb
  rcases Step.action?_cases hf with ⟨start, stop, text, rfl⟩ | ⟨g, rfl⟩ | ⟨on, rfl⟩ | rfl | rfl
  · simp only [Action.edit, StoredBuffer.edit_adopt]
  · rfl
  · rfl
  · rfl
  · rfl

/-- An action concerns the buffer that is current. -/
theorem Step.concerns_of_action? {mem : Memory} {now cursor : Nat} {step : Step} {f : Action}
    (hf : step.action? mem now cursor = some f) (name : String) (current : Bool) :
    step.concerns name current = current := by
  cases step <;> first | rfl | cases hf

theorem Step.creates_of_action? {mem : Memory} {now cursor : Nat} {step : Step} {f : Action}
    (hf : step.action? mem now cursor = some f) (name : String) : step.creates name = false := by
  cases step <;> first | rfl | cases hf

/-! ## Accepted creations and switches -/

namespace Store

variable {st : Store}

theorem findName?_push (st : Store) (sb : StoredBuffer) (name : String) :
    (st.push sb).findName? name =
      (st.findName? name).or (if sb.name = some name then some sb else none) := by
  simp [findName?, push, List.find?_append, List.find?_singleton]

theorem findName?_eq_none {name : String} : st.findName? name = none ↔ st.containsName name = false := by
  rw [containsName_eq_false]
  simp [findName?]

end Store

namespace Session

variable {s s' : Session} {mem : Memory}

/-- The session with one more buffer; the cursor is in it if no other is current. -/
def pushed (s : Session) (sb : StoredBuffer) : Session :=
  { s with
    store := s.store.push sb
    cursor := if s.store.current = none then sb.buffer.length else s.cursor }

theorem apply_of_push (hc : s.store.Consistent) {step : Step} {sb : StoredBuffer}
    (hperform : s.perform mem step = (.ok (), { s with store := s.store.push sb })) :
    s.apply mem step = (.ok (), s.pushed sb) := by
  unfold apply
  rw [hperform]
  simp only [pushed]
  cases hcurrent : s.store.current with
  | none =>
    have hnil := hc.current_eq_none.1 hcurrent
    simp [Store.push, hcurrent, syncCursor, endOfCurrent, Store.currentBuffer?, Store.find?, hnil]
  | some id => simp [Store.push, hcurrent]

theorem settle_of_ok {α : Type} {result : Except StoreError α × Store}
    (hok : s.settle result = (.ok (), s')) :
    ∃ answer, result = (.ok answer, s'.store) ∧ s' = { s with store := s'.store } := by
  rcases result with ⟨e | answer, st'⟩
  · cases hok
  · cases hok
    exact ⟨answer, rfl, rfl⟩

theorem perform_of_apply {step : Step} (hok : s.apply mem step = (.ok (), s')) :
    ∃ s₁, s.perform mem step = (.ok (), s₁) := by
  unfold apply at hok
  split at hok
  · cases hok
  · next s₁ heq => exact ⟨s₁, heq⟩

theorem apply_create (hc : s.store.Consistent) {name : String} (hempty : name.isEmpty = false)
    (hnone : s.store.findName? name = none) {b : GapBuffer} (hadmits : s.store.Admits mem b) :
    s.apply mem (.create name) = (.ok (), s.pushed (s.store.newBuffer (some name) b s.now)) := by
  apply apply_of_push hc
  have hfree := Store.findName?_eq_none.1 hnone
  simp [perform, Store.create, hempty, hfree, Store.add_of_admits hadmits, settle]

theorem create_of_ok (hc : s.store.Consistent) {name : String}
    (hok : s.apply mem (.create name) = (.ok (), s')) :
    name.isEmpty = false ∧ s.store.findName? name = none ∧
      ∃ b, s.store.Admits mem b ∧ s' = s.pushed (s.store.newBuffer (some name) b s.now) := by
  obtain ⟨s₁, hperform⟩ := perform_of_apply hok
  obtain ⟨id, hcreate, -⟩ := settle_of_ok hperform
  unfold Store.create at hcreate
  split at hcreate
  · cases hcreate
  next hempty =>
  split at hcreate
  · cases hcreate
  next hfree =>
  obtain ⟨b, hadmits, -⟩ := Store.admits_of_ok hcreate
  have hempty : name.isEmpty = false := by simpa using hempty
  have hnone := Store.findName?_eq_none.2 (Bool.eq_false_iff.2 hfree)
  rw [apply_create hc hempty hnone hadmits] at hok
  cases hok
  exact ⟨hempty, hnone, b, hadmits, rfl⟩

theorem scratch_of_ok (hc : s.store.Consistent) (hok : s.apply mem .scratch = (.ok (), s')) :
    ∃ b, s' = s.pushed (s.store.newBuffer none b s.now) := by
  obtain ⟨s₁, hperform⟩ := perform_of_apply hok
  obtain ⟨id, hscratch, hs₁⟩ := settle_of_ok hperform
  unfold Store.createScratch at hscratch
  split at hscratch
  · cases hscratch
  obtain ⟨b, -, -, hpush⟩ := Store.admits_of_ok hscratch
  rw [hs₁, hpush] at hperform
  rw [apply_of_push hc hperform] at hok
  cases hok
  exact ⟨b, rfl⟩

theorem apply_switch (hc : s.store.Consistent) {name : String} {sb : StoredBuffer}
    (hsb : s.store.findName? name = some sb) :
    s.apply mem (.switch name) =
      (.ok (), { s with store := s.store.activate s.now sb.id, cursor := sb.buffer.length }) := by
  have hmem := List.mem_of_find?_eq_some hsb
  have hend : endOfCurrent (s.store.activate s.now sb.id) = sb.buffer.length := by
    have hfind := s.store.find?_modify sb.id sb.id (f := (·.touch s.now)) fun _ => rfl
    rw [hc.find?_eq hmem, Option.map_some, if_pos rfl] at hfind
    have hcurrent : (s.store.activate s.now sb.id).currentBuffer? = some (sb.touch s.now) := hfind
    rw [endOfCurrent, hcurrent]
    rfl
  unfold apply
  simp only [perform, Store.switchToName, hsb, settle, syncCursor, hend]
  split <;> rfl

theorem switch_of_ok {name : String} (hok : s.apply mem (.switch name) = (.ok (), s')) :
    ∃ sb, s.store.findName? name = some sb := by
  cases hsb : s.store.findName? name with
  | some sb => exact ⟨sb, rfl⟩
  | none =>
    simp [apply, perform, Store.switchToName, hsb, settle] at hok

theorem apply_pause (s : Session) (mem : Memory) (ms : Nat) :
    s.apply mem (.pause ms) = (.ok (), { s with now := s.now + ms }) := by
  simp [apply, perform]

theorem moving_of_ok {f : Action} (hok : s.moving f = (.ok (), s')) :
    ∃ sb cursor, s.store.currentBuffer? = some sb ∧ (f sb).1 = .ok cursor ∧
      s' = { s.put sb.id (f sb).2 with cursor } := by
  cases hsb : s.store.currentBuffer? with
  | none =>
    rw [moving_of_none hsb] at hok
    cases hok
  | some sb =>
    rw [moving_of_some hsb] at hok
    rcases hf : f sb with ⟨e | cursor, sb'⟩
    · rw [hf] at hok
      cases hok
    · rw [hf] at hok
      cases hok
      exact ⟨sb, cursor, rfl, by rw [hf], by rw [hf]⟩

end Session

/-! ## Steps that do not concern a buffer -/

/-- The buffer `name` is as it was, and if it is current then it was and the cursor did not move. -/
structure Unconcerned (name : String) (s s' : Session) : Prop where
  named : s'.store.findName? name = s.store.findName? name
  settings : s'.store.settings = s.store.settings
  now : s'.now = s.now
  cursor : ∀ sb, s.store.findName? name = some sb → s'.store.current = some sb.id →
    s.store.current = some sb.id ∧ s'.cursor = s.cursor

section Unconcerned

variable {name : String} {s : Session} {mem : Memory}

theorem unconcerned_pushed (hc : s.store.Consistent) {new : StoredBuffer}
    (hnew : new.name ≠ some name) : Unconcerned name s (s.pushed new) where
  named := by
    show (s.store.push new).findName? name = _
    rw [Store.findName?_push, if_neg hnew, Option.or_none]
  settings := rfl
  now := rfl
  cursor sb hsb hcurrent := by
    obtain ⟨id, hid, -⟩ := hc.exists_current (List.mem_of_find?_eq_some hsb)
    have hsome : s.store.current ≠ none := by rw [hid]; exact Option.some_ne_none id
    refine ⟨?_, if_neg hsome⟩
    rw [← hcurrent, hid]
    simp [Session.pushed, Store.push, hid]

/-- Another buffer was changed, and is current. -/
theorem unconcerned_modify (hc : s.store.Consistent) {other : StoredBuffer}
    (hother : other ∈ s.store.buffers) (hname : other.name ≠ some name)
    {f : StoredBuffer → StoredBuffer} (hf : ∀ sb, (f sb).name = sb.name) (cursor : Nat) :
    Unconcerned name s
      { s with store := { s.store.modify other.id f with current := some other.id }, cursor } := by
  -- a buffer with the id of the other would be the other, and have its name
  have hne (sb : StoredBuffer) (hsb : s.store.findName? name = some sb) : sb.id ≠ other.id := by
    intro hid
    have hsame := hc.find?_eq (List.mem_of_find?_eq_some hsb)
    rw [hid, hc.find?_eq hother] at hsame
    cases hsame
    exact hname (Store.findName?_split hsb).1
  refine ⟨?_, rfl, rfl, ?_⟩
  · show (s.store.modify other.id f).findName? name = _
    rw [Store.findName?_modify _ _ _ hf]
    cases hsb : s.store.findName? name with
    | none => rfl
    | some sb => rw [Option.map_some, if_neg (hne sb hsb)]
  · intro sb hsb hcurrent
    exact absurd (Option.some.inj hcurrent).symm (hne sb hsb)

theorem unconcerned_moving (hc : s.store.Consistent) (hname : s.store.isCurrentName name = false)
    {f : Action} {s' : Session} (hok : s.moving f = (.ok (), s')) : Unconcerned name s s' := by
  obtain ⟨sb, cursor, hsb, -, rfl⟩ := Session.moving_of_ok hok
  have hother : sb.name ≠ some name := by
    simpa [Store.isCurrentName, hsb] using hname
  have hmodify := unconcerned_modify hc (Store.mem_of_currentBuffer? hsb) hother
    (f := (·.adopt (f sb).2)) (fun _ => rfl) cursor
  rw [← Store.current_of_currentBuffer? hsb] at hmodify
  exact hmodify

/-- An accepted step that does not concern the buffer leaves it alone. -/
theorem unconcerned_apply (hc : s.store.Consistent) {step : Step} (hplain : step.isPlain = true)
    (hconcerns : step.concerns name (s.store.isCurrentName name) = false) {s' : Session}
    (hok : s.apply mem step = (.ok (), s')) : Unconcerned name s s' := by
  cases hf : step.action? mem s.now s.cursor with
  | some f =>
    rw [Step.concerns_of_action? hf] at hconcerns
    rw [Session.apply_of_action? hf] at hok
    exact unconcerned_moving hc hconcerns hok
  | none =>
    cases step with
    | create other =>
      obtain ⟨-, -, b, -, rfl⟩ := Session.create_of_ok hc hok
      refine unconcerned_pushed hc ?_
      show some other ≠ some name
      simpa [Step.concerns] using hconcerns
    | scratch =>
      obtain ⟨b, rfl⟩ := Session.scratch_of_ok hc hok
      exact unconcerned_pushed hc nofun
    | switch other =>
      obtain ⟨sb, hsb⟩ := Session.switch_of_ok hok
      rw [Session.apply_switch hc hsb] at hok
      cases hok
      refine unconcerned_modify hc (List.mem_of_find?_eq_some hsb) ?_ (by intro sb; rfl) _
      rw [(Store.findName?_split hsb).1]
      simpa [Step.concerns] using hconcerns
    | pause ms => cases hconcerns
    | rename other => cases hplain
    | delete other => cases hplain
    | cleanup maxAgeMs => cases hplain
    | _ => cases hf

end Unconcerned

/-! ## Two sessions -/

/-- `t` has one buffer, which is current and has the text and the history of the buffer `sb` that is
called `name` in `s`. -/
structure Alone (name : String) (s t : Session) (sb tb : StoredBuffer) : Prop where
  named : s.store.findName? name = some sb
  buffers : t.store.buffers = [tb]
  name : tb.name = some name
  current : t.store.current = some tb.id
  buffer : tb.buffer = sb.buffer
  history : tb.history = sb.history
  now : t.now = s.now
  cursor : s.store.current = some sb.id → t.cursor = s.cursor

/-- `t` is as `s` is, with all but the buffer `name` left out; `created` says whether there is one. -/
inductive Mirrors (name : String) (s t : Session) : (created : Bool) → Prop
  | before (hnone : s.store.findName? name = none)
      (hnew : t = { store := { settings := s.store.settings }, now := s.now }) :
      Mirrors name s t false
  | after {sb tb : StoredBuffer} (h : Alone name s t sb tb) : Mirrors name s t true

section Mirrors

variable {name : String} {s s' t : Session} {mem : Memory} {created : Bool} {sb tb : StoredBuffer}

theorem Mirrors.dropped (h : Mirrors name s t created) (hs' : Unconcerned name s s') :
    Mirrors name s' t created := by
  cases h with
  | before hnone hnew =>
    refine .before (hs'.named.trans hnone) ?_
    rw [hs'.settings, hs'.now]
    exact hnew
  | after h =>
    refine .after ⟨hs'.named.trans h.named, h.buffers, h.name, h.current, h.buffer, h.history,
      h.now.trans hs'.now.symm, fun hcurrent => ?_⟩
    obtain ⟨hwas, hcursor⟩ := hs'.cursor _ h.named hcurrent
    rw [hcursor]
    exact h.cursor hwas

theorem Alone.adopt_eq (h : Alone name s t sb tb) : tb.adopt sb = tb := by
  rw [StoredBuffer.adopt, ← h.buffer, ← h.history]

theorem Alone.currentBuffer?_eq (h : Alone name s t sb tb) : t.store.currentBuffer? = some tb := by
  simp [Store.currentBuffer?, h.current, Store.find?, h.buffers]

theorem Alone.findName?_eq (h : Alone name s t sb tb) : t.store.findName? name = some tb := by
  simp [Store.findName?, h.buffers, h.name]

/-- Both sessions made the same action on the buffer. -/
theorem Alone.put (h : Alone name s t sb tb) (sb' : StoredBuffer) (cursor : Nat) :
    Alone name { s.put sb.id sb' with cursor } { t.put tb.id (tb.adopt sb') with cursor }
      (sb.adopt sb') (tb.adopt sb') where
  named := by
    have hnamed := s.store.findName?_modify sb.id name (f := (·.adopt sb')) fun _ => rfl
    rw [h.named, Option.map_some, if_pos rfl] at hnamed
    exact hnamed
  buffers := by
    show (t.store.modify tb.id (·.adopt (tb.adopt sb'))).buffers = _
    simp [Store.modify, h.buffers, StoredBuffer.adopt]
  name := h.name
  current := h.current
  buffer := rfl
  history := rfl
  now := h.now
  cursor _ := rfl

theorem Alone.action (h : Alone name s t sb tb) (hc : s.store.Consistent)
    (hcurrent : s.store.isCurrentName name = true) {step : Step} {f : Action}
    (hf : step.action? mem s.now s.cursor = some f) (hok : s.apply mem step = (.ok (), s')) :
    ∃ t' sb' tb', t.apply mem step = (.ok (), t') ∧ Alone name s' t' sb' tb' := by
  rw [Session.apply_of_action? hf] at hok
  obtain ⟨sb₁, cursor, hsb₁, hanswer, rfl⟩ := Session.moving_of_ok hok
  have hname : sb₁.name = some name := by simpa [Store.isCurrentName, hsb₁] using hcurrent
  obtain rfl : sb₁ = sb := by
    have hnamed := hc.findName?_eq (Store.mem_of_currentBuffer? hsb₁) hname
    rw [h.named] at hnamed
    exact (Option.some.inj hnamed).symm
  -- the cursors are the same, so the step is the same action in both sessions
  have hcursor := h.cursor (Store.current_of_currentBuffer? hsb₁)
  have hf' : step.action? mem t.now t.cursor = some f := by rw [h.now, hcursor, hf]
  have hlocal := action_local hf sb₁ tb
  rw [h.adopt_eq] at hlocal
  refine ⟨_, _, _, ?_, h.put (f sb₁).2 cursor⟩
  rw [Session.apply_of_action? hf', Session.moving_of_some h.currentBuffer?_eq, hlocal, hanswer]

theorem Alone.switch (h : Alone name s t sb tb) (hc : s.store.Consistent) (htc : t.store.Consistent)
    (hok : s.apply mem (.switch name) = (.ok (), s')) :
    ∃ t' sb' tb', t.apply mem (.switch name) = (.ok (), t') ∧ Alone name s' t' sb' tb' := by
  rw [Session.apply_switch hc h.named] at hok
  cases hok
  refine ⟨_, sb.touch s.now, tb.touch t.now, Session.apply_switch htc h.findName?_eq, ?_⟩
  refine ⟨?_, ?_, h.name, rfl, h.buffer, h.history, h.now, fun _ => ?_⟩
  · have hnamed := s.store.findName?_modify sb.id name (f := (·.touch s.now)) fun _ => rfl
    rw [h.named, Option.map_some, if_pos rfl] at hnamed
    exact hnamed
  · show (t.store.modify tb.id (·.touch t.now)).buffers = _
    simp [Store.modify, h.buffers]
  · show tb.buffer.length = sb.buffer.length
    rw [h.buffer]

/-- The step that creates the buffer is accepted by a new store with the same settings. -/
theorem alone_create (hc : s.store.Consistent)
    (hnew : t = { store := { settings := s.store.settings }, now := s.now })
    (hok : s.apply mem (.create name) = (.ok (), s')) :
    ∃ t' sb' tb', t.apply mem (.create name) = (.ok (), t') ∧ Alone name s' t' sb' tb' := by
  obtain ⟨hempty, hnone, b, hadmits, rfl⟩ := Session.create_of_ok hc hok
  subst hnew
  have hadmits' : Store.Admits mem { settings := s.store.settings } b :=
    ⟨Nat.lt_of_le_of_lt (Nat.zero_le _) hadmits.room, hadmits.region, hadmits.slot⟩
  refine ⟨_, s.store.newBuffer (some name) b s.now, _,
    Session.apply_create (Store.consistent_new _) hempty rfl hadmits',
    ⟨?_, rfl, rfl, rfl, rfl, rfl, rfl, ?_⟩⟩
  · show (s.store.push _).findName? name = _
    rw [Store.findName?_push, hnone, Option.none_or]
    exact if_pos rfl
  · intro hcurrent
    show b.length = if s.store.current = none then b.length else s.cursor
    cases hid : s.store.current with
    | none => rfl
    | some id =>
      -- another buffer stays current, and its id is not the new one
      have hor : s.store.current.or (some s.store.nextId) = some s.store.nextId := hcurrent
      rw [hid, Option.some_or] at hor
      have hlt := hc.numbered.below id (hc.current_mem id hid)
      rw [Option.some.inj hor] at hlt
      exact absurd hlt (Nat.lt_irrefl _)

/-- A step that concerns the buffer is accepted by both sessions. -/
theorem Mirrors.kept (h : Mirrors name s t created) (hc : s.store.Consistent)
    (htc : t.store.Consistent) {step : Step}
    (hconcerns : step.concerns name (s.store.isCurrentName name) = true)
    (hok : s.apply mem step = (.ok (), s')) :
    ∃ t', t.apply mem step = (.ok (), t') ∧
      Mirrors name s' t' (created || step.creates name) := by
  cases hf : step.action? mem s.now s.cursor with
  | some f =>
    rw [Step.concerns_of_action? hf] at hconcerns
    rw [Step.creates_of_action? hf, Bool.or_false]
    cases h with
    | before hnone hnew =>
      obtain ⟨sb, hsb, hname⟩ := (Option.any_eq_true _ _).1 hconcerns
      rw [hc.findName?_eq (Store.mem_of_currentBuffer? hsb) (by simpa using hname)] at hnone
      cases hnone
    | after h =>
      obtain ⟨t', sb', tb', heq, h'⟩ := h.action hc hconcerns hf hok
      exact ⟨t', heq, .after h'⟩
  | none =>
    cases step with
    | create other =>
      obtain rfl : other = name := by simpa [Step.concerns] using hconcerns
      cases h with
      | before hnone hnew =>
        obtain ⟨t', sb', tb', heq, h'⟩ := alone_create hc hnew hok
        exact ⟨t', heq, by simpa [Step.creates] using .after h'⟩
      | after h =>
        obtain ⟨-, hnone, -⟩ := Session.create_of_ok hc hok
        rw [h.named] at hnone
        cases hnone
    | switch other =>
      obtain rfl : other = name := by simpa [Step.concerns] using hconcerns
      cases h with
      | before hnone hnew =>
        obtain ⟨sb, hsb⟩ := Session.switch_of_ok hok
        rw [hnone] at hsb
        cases hsb
      | after h =>
        obtain ⟨t', sb', tb', heq, h'⟩ := h.switch hc htc hok
        exact ⟨t', heq, .after h'⟩
    | pause ms =>
      rw [Session.apply_pause] at hok ⊢
      cases hok
      refine ⟨_, rfl, ?_⟩
      cases h with
      | before hnone hnew =>
        subst hnew
        exact .before hnone rfl
      | after h =>
        exact .after ⟨h.named, h.buffers, h.name, h.current, h.buffer, h.history,
          congrArg (· + ms) h.now, h.cursor⟩
    | scratch => cases hconcerns
    | rename other => cases hconcerns
    | delete other => cases hconcerns
    | cleanup maxAgeMs => cases hconcerns
    | _ => cases hf

end Mirrors

/-! ## Runs -/

theorem Step.creates_eq_false {name : String} {current : Bool} {step : Step}
    (hconcerns : step.concerns name current = false) : step.creates name = false := by
  cases step <;> first | exact hconcerns | rfl

theorem Script.runFrom_restrict {name : String} {mem : Memory} {steps : List Step}
    (hplain : ∀ step ∈ steps, step.isPlain = true) {s s' t : Session} {created : Bool}
    (hmirrors : Mirrors name s t created) (hc : s.store.Consistent) (htc : t.store.Consistent)
    {number : Nat} (hok : runFrom mem number steps s = (.ok (), s')) (number' : Nat) :
    ∃ t', runFrom mem number' (restrict mem name steps s) t = (.ok (), t') ∧
      Mirrors name s' t' (created || steps.any (·.creates name)) := by
  induction steps generalizing s t created number number' with
  | nil =>
    cases hok
    exact ⟨t, rfl, by simpa using hmirrors⟩
  | cons step rest ih =>
    obtain ⟨hstep, hrest⟩ := List.forall_mem_cons.1 hplain
    rcases happly : s.apply mem step with ⟨e | ⟨⟩, s₁⟩
    · rw [runFrom, happly] at hok
      cases hok
    · rw [runFrom, happly] at hok
      have hc₁ := Session.consistent_invariant.apply hc mem step
      rw [happly] at hc₁
      rw [restrict, happly, List.any_cons, ← Bool.or_assoc]
      -- a kept step is made by both sessions, another one by the first alone
      cases hconcerns : step.concerns name (s.store.isCurrentName name) with
      | true =>
        obtain ⟨t₁, happly', hmirrors₁⟩ := hmirrors.kept hc htc hconcerns happly
        have htc₁ := Session.consistent_invariant.apply htc mem step
        rw [happly'] at htc₁
        obtain ⟨t', hrun, hmirrors'⟩ := ih hrest hmirrors₁ hc₁ htc₁ hok (number' + 1)
        refine ⟨t', ?_, hmirrors'⟩
        rw [if_pos rfl, runFrom, happly']
        exact hrun
      | false =>
        have hmirrors₁ := hmirrors.dropped (unconcerned_apply hc hstep hconcerns happly)
        rw [Step.creates_eq_false hconcerns, Bool.or_false]
        exact ih hrest hmirrors₁ hc₁ htc hok number'

theorem Script.runFrom_of_run {mem : Memory} {script : Script} {s s' : Session} {summary : Summary}
    (hrun : script.run mem s = (.ok summary, s')) :
    runFrom mem 1 script.steps { s with cursor := 0 } = (.ok (), s') := by
  unfold Script.run at hrun
  split at hrun
  · cases hrun
  · next heq =>
    cases hrun
    exact heq

theorem Script.run_of_runFrom {mem : Memory} {script : Script} {s s' : Session}
    (hok : runFrom mem 1 script.steps { s with cursor := 0 } = (.ok (), s')) :
    script.run mem s = (.ok { steps := script.steps.length, cursor := s'.cursor }, s') := by
  rw [Script.run, hok]

/-- When a script that neither renames nor removes buffers runs to its end on a new store, the steps
that concern a buffer it creates run to their end on their own, and leave the buffer with the same
text, flags and gap and the same history. -/
theorem restrict_runs (settings : Settings) (now : Nat) (mem : Memory) (steps : List Step)
    (hplain : ∀ step ∈ steps, step.isPlain = true) (name : String) (hname : .create name ∈ steps)
    (summary : Summary) (s : Session)
    (hrun : Script.run mem { steps } { store := { settings }, now } = (.ok summary, s)) :
    ∃ summary' s' sb sb',
      Script.run mem { steps := Script.restrict mem name steps { store := { settings }, now } }
        { store := { settings }, now } = (.ok summary', s') ∧
      s.store.findName? name = some sb ∧ s'.store.findName? name = some sb' ∧
      sb'.buffer = sb.buffer ∧ sb'.history = sb.history ∧ s'.now = s.now := by
  have hnew := Store.consistent_new settings
  have hstart : Mirrors name { store := { settings }, now } { store := { settings }, now } false :=
    .before rfl rfl
  obtain ⟨s', hrun', hmirrors⟩ :=
    Script.runFrom_restrict hplain hstart hnew hnew (Script.runFrom_of_run hrun) 1
  have hcreated : (steps.any fun step => step.creates name) = true :=
    List.any_eq_true.2 ⟨_, hname, beq_self_eq_true name⟩
  rw [hcreated] at hmirrors
  cases hmirrors with
  | @after sb sb' h =>
    exact ⟨_, s', sb, sb', Script.run_of_runFrom hrun', h.named, h.findName?_eq, h.buffer, h.history,
      h.now⟩

/-- Two buffers edited in turn, with the cursor of the first put aside in between. -/
def interleavedSteps : List Step :=
  [.create "a", .insert 0 "abc", .create "b", .switch "b", .insert 0 "xy", .pause 5, .switch "a",
    .erase 0 1, .scratch, .switch "b", .undo]

theorem restrict_runs_interleaved :
    Script.restrict .host "a" interleavedSteps smallStart =
        [.create "a", .insert 0 "abc", .pause 5, .switch "a", .erase 0 1] ∧
      ∃ summary s sb, Script.run .host
          { steps := Script.restrict .host "a" interleavedSteps smallStart } smallStart =
        (.ok summary, s) ∧ s.store.findName? "a" = some sb := by
  have hok : (Script.run .host { steps := interleavedSteps } smallStart).1.isOk = true := by
    decide +kernel
  refine ⟨by decide +kernel, ?_⟩
  rcases hrun : Script.run .host { steps := interleavedSteps } smallStart with ⟨e | summary, s⟩
  · rw [hrun] at hok
    cases hok
  · obtain ⟨summary', s', -, sb', hrun', -, hsb', -⟩ :=
      restrict_runs { initialCapacity := 4 } 0 .host interleavedSteps (by decide) "a" (by decide)
        summary s hrun
    exact ⟨summary', s', sb', hrun', hsb'⟩

end TextStore
