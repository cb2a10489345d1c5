import TextStore.Proofs.Script.Cursor
import TextStore.Proofs.Store.Flags

/-!
# The flags of a buffer can be trusted

Buffers of a session are changed by the steps of scripts, and past the scripts by calls on one of
them, in any order.

* `Event`, `Session.play` : what can happen in a session, and a run of it. A script is such a run
  (`run_eq_play`);
* `Store.Evolves R removes st st'` : each buffer of `st'` that is not new comes from the buffer of
  `st` with its id by `R`. Ids are not given twice, so this goes on from event to event
  (`Evolves.trans`);
* `Event.evolves`, `Session.evolves_play` : every event, and so every run, respects the flags of each
  buffer;
* `Session.cleanText` : the text of a buffer when its modified flag was last cleared, or when it was
  created. A buffer that is not modified holds it (`Clean.play`);
* `Session.TrustedFlags` : what both flags say about the buffers of a session after events;
* `flags_trusted` : so they do, on their own and in a session.
-/

namespace TextStore

open GapBuffer (Respects)

/-- Something that happens in a session. -/
inductive Event where
  /-- A script starts. -/
  | start
  /-- A script performs a step. -/
  | step (mem : Memory) (step : Step)
  /-- A call is made on the buffer with this id, whose history may be any afterwards. -/
  | call (id : Nat) (call : BufferCall) (history : History)

namespace Event

def perform (s : Session) : Event → Session
  | start => { s with cursor := 0 }
  | step mem action => (s.apply mem action).2
  | call id made history =>
    { s with
      store := (s.store.update id fun sb =>
        ((), { sb with buffer := made.apply sb.buffer, history })).2 }

/-- Whether the event lets the buffer `id` accept edits. -/
def unlocks (s : Session) (id : Nat) : Event → Bool
  | step _ (.readOnly false) => s.store.current == some id
  | call other made _ => other == id && made.unlocks
  | _ => false

/-- Whether the event clears the modified flag of the buffer `id`. -/
def clears (id : Nat) : Event → Bool
  | call other made _ => other == id && made.clears
  | _ => false

/-- Whether the event removes buffers as a whole. -/
def removes : Event → Bool
  | step _ (.delete _) | step _ (.cleanup _) => true
  | _ => false

end Event

namespace Session

/-- The session after events in turn. -/
def play (s : Session) (events : List Event) : Session := events.foldl Event.perform s

/-- Whether one of the events, when it happens, lets the buffer `id` accept edits. -/
def unlocks (s : Session) (id : Nat) : List Event → Bool
  | [] => false
  | e :: rest => e.unlocks s id || unlocks (e.perform s) id rest

end Session

/-! ## Scripts -/

/-- Starting a script and performing its steps up to one that fails is a run of events. -/
theorem Script.run_eq_play (mem : Memory) (script : Script) (s : Session) :
    ∃ count, (script.run mem s).2 =
      s.play (.start :: (script.steps.take count).map (Event.step mem)) := by
  have hfrom (number : Nat) (steps : List Step) (s : Session) : ∃ count,
      (Script.runFrom mem number steps s).2 = s.play ((steps.take count).map (Event.step mem)) := by
    induction steps generalizing number s with
    | nil => exact ⟨0, rfl⟩
    | cons step rest ih =>
      rcases happly : s.apply mem step with ⟨e | ⟨⟩, s'⟩
      · refine ⟨1, ?_⟩
        simp [Script.runFrom, happly, Session.play, Event.perform]
      · obtain ⟨count, hrest⟩ := ih (number + 1) s'
        refine ⟨count + 1, ?_⟩
        simpa [Script.runFrom, happly, Session.play, Event.perform] using hrest
  obtain ⟨count, hcount⟩ := hfrom 1 script.steps { s with cursor := 0 }
  refine ⟨count, ?_⟩
  show _ = Session.play { s with cursor := 0 } _
  rw [← hcount, Script.run]
  split <;> next heq => rw [heq]

/-! ## Buffers of a store from one moment to the next -/

namespace Store

variable {st st' st'' : Store} {R R' : Nat → GapBuffer → GapBuffer → Prop} {removes removes' : Prop}

/-- Each buffer of `st'` that is not new comes by `R` from the buffer of `st` with its id, and only
where buffers are removed one is missing. -/
structure Evolves (R : Nat → GapBuffer → GapBuffer → Prop) (removes : Prop) (st st' : Store) :
    Prop where
  nextId_le : st.nextId ≤ st'.nextId
  kept : ∀ sb' ∈ st'.buffers, sb'.id < st.nextId →
    ∃ sb ∈ st.buffers, sb.id = sb'.id ∧ R sb.id sb.buffer sb'.buffer
  ids : ¬ removes → st.ids ⊆ st'.ids

theorem Evolves.mono (h : st.Evolves R removes st') (hR : ∀ id b b', R id b b' → R' id b b')
    (hremoves : removes → removes') : st.Evolves R' removes' st' := by
  refine ⟨h.nextId_le, fun sb' hsb' hlt => ?_, fun hno => h.ids fun hyes => hno (hremoves hyes)⟩
  obtain ⟨sb, hsb, hid, hkept⟩ := h.kept sb' hsb' hlt
  exact ⟨sb, hsb, hid, hR _ _ _ hkept⟩

theorem Evolves.trans (h : st.Evolves R removes st') (h' : st'.Evolves R removes st'')
    (htrans : ∀ id b b' b'', R id b b' → R id b' b'' → R id b b'') :
    st.Evolves R removes st'' := by
  refine ⟨Nat.le_trans h.nextId_le h'.nextId_le, fun sb'' hsb'' hlt => ?_,
    fun hno => List.Subset.trans (h.ids hno) (h'.ids hno)⟩
  obtain ⟨sb', hsb', hid', hkept'⟩ := h'.kept sb'' hsb'' (Nat.lt_of_lt_of_le hlt h.nextId_le)
  obtain ⟨sb, hsb, hid, hkept⟩ := h.kept sb' hsb' (hid' ▸ hlt)
  rw [← hid] at hkept'
  exact ⟨sb, hsb, hid.trans hid', htrans _ _ _ _ hkept hkept'⟩

section

variable (hrefl : ∀ sb ∈ st.buffers, R sb.id sb.buffer sb.buffer)
include hrefl

/-- Looking after buffers keeps what is in them. -/
theorem Carries.evolves (h : st.Carries st') (hnext : st.nextId ≤ st'.nextId)
    (hids : ¬ removes → st.ids ⊆ st'.ids) : st.Evolves R removes st' := by
  refine ⟨hnext, fun sb' hsb' hlt => ?_, hids⟩
  obtain ⟨sb, hsb, hid, hbuffer⟩ := h sb' hsb' hlt
  exact ⟨sb, hsb, hid, hbuffer ▸ hrefl sb hsb⟩

theorem Evolves.refl : st.Evolves R removes st :=
  (Carries.refl st).evolves hrefl (Nat.le_refl _) fun _ => List.Subset.refl _

theorem Removes.evolves (h : st.Removes st') (hremoves : removes) : st.Evolves R removes st' :=
  h.carries.evolves hrefl (Nat.le_of_eq h.nextId.symm) fun hno => absurd hremoves hno

theorem Issues.evolves {result : Except StoreError Nat × Store} (h : st.Issues result)
    (hcarries : st.Carries result.2) : st.Evolves R removes result.2 := by
  rcases h with ⟨e, rfl⟩ | ⟨st', rfl, hst'⟩
  · exact .refl hrefl
  · refine hcarries.evolves hrefl ?_ fun _ => ?_
    · rw [hst'.nextId]
      omega
    · rw [hst'.ids]
      exact List.subset_append_left _ _

/-- The name, the use or the place in the store of one buffer changes. -/
theorem evolves_modify (id : Nat) {f : StoredBuffer → StoredBuffer}
    (hid : ∀ sb, (f sb).id = sb.id) (hbuffer : ∀ sb, (f sb).buffer = sb.buffer)
    (current : Option Nat) (count : Nat) :
    st.Evolves R removes { st.modify id f with current, scratchCount := count } := by
  refine (st.carries_modify id hid hbuffer current count).evolves hrefl (Nat.le_refl _) fun _ => ?_
  rw [← st.ids_modify id hid]
  exact List.Subset.refl _

theorem evolves_switchToName (now : Nat) (name : String) :
    st.Evolves R removes (st.switchToName now name).2 := by
  unfold switchToName
  split
  · exact .refl hrefl
  · exact evolves_modify hrefl _ (by intro sb; rfl) (by intro sb; rfl) _ _

theorem evolves_rename (id : Nat) (name : String) :
    st.Evolves R removes (st.rename id name).2 := by
  unfold rename
  split
  · exact .refl hrefl
  split
  · exact .refl hrefl
  split
  · exact .refl hrefl
  · exact evolves_modify hrefl _ (by intro sb; rfl) (by intro sb; rfl) _ _

/-- One buffer changes by `R`. -/
theorem evolves_update {α : Type} (hc : st.Consistent) (id : Nat)
    {f : StoredBuffer → α × StoredBuffer}
    (hf : ∀ sb ∈ st.buffers, sb.id = id → R id sb.buffer (f sb).2.buffer) :
    st.Evolves R removes (st.update id f).2 := by
  unfold update
  split
  · exact .refl hrefl
  next found hfound =>
  refine ⟨Nat.le_refl _, ?_, fun _ => ?_⟩
  · intro sb' hsb' _
    obtain ⟨sb, hsb, rfl⟩ := List.mem_map.1 hsb'
    refine ⟨sb, hsb, ?_⟩
    split
    · next hid =>
      -- no other buffer has this id
      rw [← hid, hc.find?_eq hsb] at hfound
      obtain rfl : sb = found := Option.some.inj hfound
      refine ⟨rfl, ?_⟩
      rw [hid]
      exact hf sb hsb hid
    · exact ⟨rfl, hrefl sb hsb⟩
  · rw [st.ids_modify id (by intro sb; rfl)]
    exact List.Subset.refl _

end

end Store

/-! ## Every event respects the flags -/

namespace Session

variable {s : Session} {R : Nat → GapBuffer → GapBuffer → Prop} {removes : Prop}

/-- The store is consistent and its buffers are well-formed. -/
structure Tidy (s : Session) : Prop where
  consistent : s.store.Consistent
  wellFormed : s.store.Each fun b _ => b.WellFormed

/-- What is done to the current buffer is done to one buffer or to none. -/
theorem store_onCurrent {α : Type} (s : Session)
    (f : StoredBuffer → Except StepError α × StoredBuffer) :
    (s.onCurrent f).2.store = s.store ∨
      ∃ id, s.store.current = some id ∧ (s.onCurrent f).2.store = (s.store.update id f).2 := by
  unfold onCurrent
  split
  · exact .inl rfl
  next id hid =>
  rcases hupdate : s.store.update id f with ⟨_ | answer, st⟩
  · exact .inl rfl
  · exact .inr ⟨id, hid, by rw [hupdate]⟩

theorem store_moving (s : Session) (f : Action) :
    (s.moving f).2.store = (s.onCurrent f).2.store := by
  unfold moving
  split <;> next heq => rw [heq]

theorem store_switch (s : Session) (mem : Memory) (name : String) :
    (s.perform mem (.switch name)).2.store = (s.store.switchToName s.now name).2 := by
  rw [← s.store_settle]
  simp only [perform]
  split
  · next heq => rw [heq]
  · next heq =>
    rw [heq]
    rfl

theorem evolves_onCurrent {α : Type} (hs : s.Tidy)
    (hrefl : ∀ sb ∈ s.store.buffers, R sb.id sb.buffer sb.buffer)
    {f : StoredBuffer → Except StepError α × StoredBuffer}
    (hf : ∀ sb ∈ s.store.buffers, s.store.current = some sb.id → R sb.id sb.buffer (f sb).2.buffer) :
    s.store.Evolves R removes (s.onCurrent f).2.store := by
  rcases s.store_onCurrent f with hsame | ⟨id, hid, hupdate⟩
  · rw [hsame]
    exact .refl hrefl
  · rw [hupdate]
    refine Store.evolves_update hrefl hs.consistent id fun sb hsb heq => ?_
    subst heq
    exact hf sb hsb hid

theorem evolves_moving (hs : s.Tidy)
    (hrefl : ∀ sb ∈ s.store.buffers, R sb.id sb.buffer sb.buffer) {f : Action}
    (hf : ∀ sb ∈ s.store.buffers, s.store.current = some sb.id → R sb.id sb.buffer (f sb).2.buffer) :
    s.store.Evolves R removes (s.moving f).2.store := by
  rw [store_moving]
  exact evolves_onCurrent hs hrefl hf

/-- A step respects the flags of each buffer, and no step clears the modified flag. -/
theorem evolves_perform (hs : s.Tidy) (mem : Memory) (step : Step) :
    s.store.Evolves (fun id => Respects (Event.unlocks s id (.step mem step) = true) False)
      (Event.removes (.step mem step) = true) (s.perform mem step).2.store := by
  have hrefl : ∀ sb ∈ s.store.buffers,
      Respects (Event.unlocks s sb.id (.step mem step) = true) False sb.buffer sb.buffer :=
    fun sb hsb => .refl (hs.wellFormed sb hsb)
  cases step with
  | create name =>
    rw [perform, store_settle]
    exact (Store.issues_create mem s.now s.store name).evolves hrefl
      (Store.carries_create mem s.now s.store name)
  | scratch =>
    rw [perform, store_settle]
    exact (Store.issues_createScratch mem s.now s.store).evolves hrefl
      (Store.carries_createScratch mem s.now s.store)
  | switch name =>
    rw [store_switch]
    exact Store.evolves_switchToName hrefl s.now name
  | rename name =>
    simp only [perform]
    split
    · exact .refl hrefl
    · next id _ =>
      rw [store_settle]
      exact Store.evolves_rename hrefl id name
  | delete name =>
    rw [perform, store_settle]
    exact (s.store.removes_deleteName name).evolves hrefl rfl
  | cleanup maxAgeMs => exact (s.store.removes_removeStale s.now maxAgeMs).evolves hrefl rfl
  | pause ms => exact .refl hrefl
  | insert pos text =>
    exact evolves_moving hs hrefl fun sb hsb _ =>
      StoredBuffer.edit_respects (hs.wellFormed sb hsb) mem s.now s.cursor pos pos _
  | erase start stop =>
    exact evolves_moving hs hrefl fun sb hsb _ =>
      StoredBuffer.edit_respects (hs.wellFormed sb hsb) mem s.now s.cursor start stop _
  | replace start stop text =>
    exact evolves_moving hs hrefl fun sb hsb _ =>
      StoredBuffer.edit_respects (hs.wellFormed sb hsb) mem s.now s.cursor start stop _
  | beginSequence => exact evolves_onCurrent hs hrefl fun sb hsb _ => hrefl sb hsb
  | endSequence => exact evolves_onCurrent hs hrefl fun sb hsb _ => hrefl sb hsb
  | undo =>
    exact evolves_moving hs hrefl fun sb hsb _ =>
      StoredBuffer.undo_respects (hs.wellFormed sb hsb) mem s.now
  | redo =>
    exact evolves_moving hs hrefl fun sb hsb _ =>
      StoredBuffer.redo_respects (hs.wellFormed sb hsb) mem s.now
  | readOnly enabled =>
    refine evolves_onCurrent hs hrefl fun sb hsb hcurrent => ?_
    have hset := GapBuffer.respects_perform mem (hs.wellFormed sb hsb) (.setReadOnly enabled)
    refine hset.mono ?_ ?_
    · rintro ⟨⟩
      simp [Event.unlocks, hcurrent]
    · intro hclears
      cases hclears

end Session

theorem wellFormed_invariant : BufferInvariant fun b _ => b.WellFormed where
  new _ _ _ _ hb := (GapBuffer.withCapacity_runs hb).1.wellFormed
  beginSequence _ _ _ _ hb := hb
  closeSequence _ _ _ _ hb := hb
  undo sb mem now hb := by
    have hrespects : Respects False False sb.buffer _ := sb.undo_respects hb mem now
    exact hrespects.wellFormed
  redo sb mem now hb := by
    have hrespects : Respects False False sb.buffer _ := sb.redo_respects hb mem now
    exact hrespects.wellFormed
  setReadOnly _ _ _ hb := hb
  edit sb mem now cursor start stop text hb := by
    have hrespects : Respects False False sb.buffer _ :=
      sb.edit_respects hb mem now cursor start stop text
    exact hrespects.wellFormed

namespace Event

variable {s : Session}

theorem tidy (hs : s.Tidy) (e : Event) : (e.perform s).Tidy := by
  cases e with
  | start => exact ⟨hs.consistent, hs.wellFormed⟩
  | step mem step =>
    exact ⟨Session.consistent_invariant.apply hs.consistent mem step,
      wellFormed_invariant.each.apply hs.wellFormed mem step⟩
  | call id call history =>
    exact ⟨hs.consistent.update id _, hs.wellFormed.update id fun sb _ hb =>
      (call.respects hb).wellFormed⟩

/-- Whatever happens respects the flags of each buffer. -/
theorem evolves (hs : s.Tidy) (e : Event) :
    s.store.Evolves (fun id => Respects (e.unlocks s id = true) (e.clears id = true))
      (e.removes = true) (e.perform s).store := by
  have hrefl : ∀ sb ∈ s.store.buffers,
      Respects (e.unlocks s sb.id = true) (e.clears sb.id = true) sb.buffer sb.buffer :=
    fun sb hsb => .refl (hs.wellFormed sb hsb)
  cases e with
  | start => exact .refl hrefl
  | step mem step =>
    show s.store.Evolves _ _ (s.apply mem step).2.store
    rw [s.store_apply mem step]
    exact (Session.evolves_perform hs mem step).mono (fun _ _ _ h => h.mono id nofun) id
  | call id call history =>
    refine Store.evolves_update hrefl hs.consistent id fun sb hsb _ => ?_
    refine (call.respects (hs.wellFormed sb hsb)).mono ?_ ?_
    · intro h
      simpa [unlocks] using h
    · intro h
      simpa [clears] using h

end Event

/-! ## Runs -/

namespace Session

variable {s : Session}

theorem tidy_play (hs : s.Tidy) (events : List Event) : (s.play events).Tidy := by
  induction events generalizing s with
  | nil => exact hs
  | cons e rest ih => exact ih (e.tidy hs)

theorem evolves_play (hs : s.Tidy) (events : List Event) :
    s.store.Evolves
      (fun id => Respects (s.unlocks id events = true) (∃ e ∈ events, e.clears id = true))
      (∃ e ∈ events, e.removes = true) (s.play events).store := by
  induction events generalizing s with
  | nil => exact .refl fun sb hsb => .refl (hs.wellFormed sb hsb)
  | cons e rest ih =>
    have hfirst := e.evolves hs
    have hrest := ih (e.tidy hs)
    refine .trans (hfirst.mono ?_ ?_) (hrest.mono ?_ ?_) fun _ _ _ _ h h' => h.trans h'
    · refine fun _ _ _ h => h.mono ?_ fun hclears => ⟨e, List.mem_cons_self, hclears⟩
      exact fun hunlocks => Bool.or_eq_true_iff.2 (.inl hunlocks)
    · exact fun hremoves => ⟨e, List.mem_cons_self, hremoves⟩
    · refine fun _ _ _ h => h.mono (fun hunlocks => Bool.or_eq_true_iff.2 (.inr hunlocks)) ?_
      exact fun ⟨later, hmem, hclears⟩ => ⟨later, List.mem_cons_of_mem _ hmem, hclears⟩
    · exact fun ⟨later, hmem, hremoves⟩ => ⟨later, List.mem_cons_of_mem _ hmem, hremoves⟩

/-- The text of the buffer `id`, or none when there is no such buffer. -/
def textOf (s : Session) (id : Nat) : List UInt8 :=
  match s.store.find? id with
  | none => []
  | some sb => sb.buffer.contents

/-- What `clean` becomes by an event when it is the text of the buffer `id` at the last point where
the modified flag was cleared or the buffer was created. -/
def cleanAfter (s : Session) (id : Nat) (clean : List UInt8) (e : Event) : List UInt8 :=
  if e.clears id || (s.store.find? id).isNone then (e.perform s).textOf id else clean

/-- The text of the buffer `id` at the last event that clears its modified flag or creates it, or
`clean` when none does. -/
def cleanText (s : Session) (id : Nat) (clean : List UInt8) : List Event → List UInt8
  | [] => clean
  | e :: rest => cleanText (e.perform s) id (s.cleanAfter id clean e) rest

/-- If the buffer `id` is there and not modified, then this is its text. -/
def Clean (s : Session) (id : Nat) (clean : List UInt8) : Prop :=
  ∀ sb ∈ s.store.buffers, sb.id = id → sb.buffer.modified = false → sb.buffer.contents = clean

theorem Clean.perform {id : Nat} {clean : List UInt8} (hs : s.Tidy) (hclean : s.Clean id clean)
    (e : Event) : (e.perform s).Clean id (s.cleanAfter id clean e) := by
  rintro sb' hsb' rfl hmodified
  unfold cleanAfter
  split
  · rw [textOf, (e.tidy hs).consistent.find?_eq hsb']
  next hkept =>
  rw [Bool.or_eq_true, not_or, Option.isNone_iff_eq_none] at hkept
  obtain ⟨hclears, hfound⟩ := hkept
  obtain ⟨old, hold⟩ := Option.ne_none_iff_exists'.1 hfound
  -- the buffer is not new, so it comes from the one that had its id before
  obtain ⟨hid, pre, post, hsplit⟩ := Store.find?_split hold
  have hmem : old ∈ s.store.buffers := by simp [hsplit]
  have hlt := hs.consistent.numbered.below _ (Store.mem_ids hmem)
  obtain ⟨sb, hsb, hid', hrespects⟩ := (e.evolves hs).kept sb' hsb' (hid ▸ hlt)
  rw [hid'] at hrespects
  obtain ⟨hbefore, hsame⟩ := hrespects.modified hmodified hclears
  rw [hsame]
  exact hclean sb hsb hid' hbefore

theorem Clean.play {id : Nat} {clean : List UInt8} (hs : s.Tidy) (hclean : s.Clean id clean)
    (events : List Event) : (s.play events).Clean id (s.cleanText id clean events) := by
  induction events generalizing s clean with
  | nil => exact hclean
  | cons e rest ih => exact ih (e.tidy hs) (hclean.perform hs e)

/-- What the flags of the buffers of a session say after events. -/
structure TrustedFlags (s : Session) (events : List Event) : Prop where
  /-- A buffer that was read-only at some moment, and did not accept edits again after it, still has
  its text unless it was removed as a whole. -/
  readOnly : ∀ before later, events = before ++ later → ∀ sb ∈ (s.play before).store.buffers,
    sb.buffer.readOnly = true → (s.play before).unlocks sb.id later = false →
      (sb.id ∈ (s.play events).store.ids ∨ ∃ e ∈ later, e.removes = true) ∧
        ∀ sb' ∈ (s.play events).store.buffers, sb'.id = sb.id →
          sb'.buffer.readOnly = true ∧ sb'.buffer.contents = sb.buffer.contents
  /-- A buffer that is not modified has the text it had when the flag was last cleared, or else the
  one it was created with. -/
  modified : ∀ sb ∈ (s.play events).store.buffers, sb.buffer.modified = false →
    sb.buffer.contents = s.cleanText sb.id [] events
  sets : ∀ sb ∈ (s.play events).store.buffers, ∀ mem op, sb.buffer.SetsByEdit mem op

/-- A read-only buffer keeps its text as long as it is there. -/
theorem Tidy.readOnly_play (hs : s.Tidy) {sb : StoredBuffer} (hsb : sb ∈ s.store.buffers)
    (hro : sb.buffer.readOnly = true) {events : List Event}
    (hlocked : s.unlocks sb.id events = false) :
    (sb.id ∈ (s.play events).store.ids ∨ ∃ e ∈ events, e.removes = true) ∧
      ∀ sb' ∈ (s.play events).store.buffers, sb'.id = sb.id →
        sb'.buffer.readOnly = true ∧ sb'.buffer.contents = sb.buffer.contents := by
  have hevolves := evolves_play hs events
  have hmem := Store.mem_ids hsb
  refine ⟨?_, ?_⟩
  · by_cases hremoves : ∃ e ∈ events, e.removes = true
    · exact .inr hremoves
    · exact .inl (hevolves.ids hremoves hmem)
  · intro sb' hsb' hid
    have hlt := hs.consistent.numbered.below _ hmem
    obtain ⟨first, hfirst, hid', hrespects⟩ := hevolves.kept sb' hsb' (hid ▸ hlt)
    -- the buffer that `sb'` comes from is `sb`, whose id no other has
    have hfound := hs.consistent.find?_eq hfirst
    rw [hid', hid, hs.consistent.find?_eq hsb] at hfound
    obtain rfl : sb = first := Option.some.inj hfound
    exact hrespects.readOnly hro (ne_true_of_eq_false hlocked)

theorem trustedFlags (hs : s.Tidy) (hempty : s.store.buffers = []) (events : List Event) :
    s.TrustedFlags events := by
  have hlast := tidy_play hs events
  refine ⟨?_, ?_, fun sb hsb mem op => GapBuffer.setsByEdit mem (hlast.wellFormed sb hsb) op⟩
  · rintro before later rfl sb hsb hro hlocked
    have hkept := (tidy_play hs before).readOnly_play hsb hro hlocked
    rw [play, List.foldl_append]
    exact hkept
  · intro sb hsb hmodified
    have hclean : s.Clean sb.id [] := by simp [Clean, hempty]
    exact hclean.play hs events sb hsb rfl hmodified

theorem tidy_new (settings : Settings) (cursor now : Nat) :
    Tidy { store := { settings }, cursor, now } :=
  ⟨Store.consistent_new settings, fun _ hsb => by cases hsb⟩

end Session

/-- Whatever calls are made on a buffer from its making on, and whatever scripts and calls on their
buffers happen in a session, the read-only flag and the modified flag can be trusted. -/
theorem flags_trusted :
    (∀ (start : GapStart) mem b, start.make mem = .ok b → ∀ calls, b.TrustedFlags calls) ∧
      (∀ settings cursor now events,
        Session.TrustedFlags { store := { settings }, cursor, now } events) ∧
      ∀ mem (script : Script) (s : Session), ∃ count, (script.run mem s).2 =
        s.play (.start :: (script.steps.take count).map (Event.step mem)) := by
  refine ⟨?_, ?_, Script.run_eq_play⟩
  · intro start mem b hstart calls
    exact GapBuffer.trustedFlags (GapBuffer.make_text hstart).1 calls
  · intro settings cursor now events
    exact Session.trustedFlags (Session.tidy_new settings cursor now) rfl events

/-- The flag is cleared after an insertion. A gap move, a growth and a deletion out of range follow. -/
def clearedCalls : List BufferCall :=
  [.perform .ample (.insert 1 [98]), .perform .ample .clearModified,
    .perform .ample (.moveGap 0), .perform .ample (.reserve 99), .perform .ample (.delete 1 9)]

/-- A script that ends with a read-only buffer. -/
def lockingEvents : List Event :=
  [.start, .step .host (.create "a"), .step .host (.insert 0 "x"), .step .host (.readOnly true)]

/-- An insertion, an undo, a rename and a cleanup by a script, and past it a redo. -/
def refusedEvents : List Event :=
  [.step .host (.insert 0 "y"), .step .host .undo, .step .host (.rename "b"),
    .step .host (.cleanup 0), .call 1 (.replay .host 5 .on { settings := {} }) { settings := {} }]

theorem flags_trusted_refused :
    (∃ b, GapStart.make .ample (.ofBytes [97]) = .ok b ∧
      (b.runCalls clearedCalls).modified = false ∧
        (b.runCalls clearedCalls).contents = [97, 98]) ∧
    ∃ sb ∈ (smallStart.play lockingEvents).store.buffers,
      sb.buffer.readOnly = true ∧ sb.buffer.contents = [120] ∧
        ∃ sb' ∈ (smallStart.play (lockingEvents ++ refusedEvents)).store.buffers,
          sb'.name = some "b" ∧ sb'.buffer.contents = [120] := by
  obtain ⟨hbuffers, hsessions, -⟩ := flags_trusted
  constructor
  · have hmodified : ((GapBuffer.ofBytes .ample [97]).map fun b =>
        (b.runCalls clearedCalls).modified) = .ok false := by decide +kernel
    have hclean : ((GapBuffer.ofBytes .ample [97]).map fun b =>
        b.cleanText b.contents clearedCalls) = .ok [97, 98] := by decide +kernel
    rcases hb : GapBuffer.ofBytes .ample [97] with e | b
    · rw [hb] at hmodified
      cases hmodified
    rw [hb] at hmodified hclean
    have htrusted := hbuffers (.ofBytes [97]) .ample b hb clearedCalls
    have hunmodified := Except.ok.inj hmodified
    exact ⟨b, hb, hunmodified, (htrusted.modified hunmodified).trans (Except.ok.inj hclean)⟩
  · have hlocked : ∃ sb ∈ (smallStart.play lockingEvents).store.buffers,
        sb.buffer.readOnly = true ∧ sb.buffer.contents = [120] ∧
          (smallStart.play lockingEvents).unlocks sb.id refusedEvents = false ∧
          ∃ sb' ∈ (smallStart.play (lockingEvents ++ refusedEvents)).store.buffers,
            sb'.id = sb.id ∧ sb'.name = some "b" := by decide +kernel
    obtain ⟨sb, hsb, hro, htext, hunlocks, sb', hsb', hid, hname⟩ := hlocked
    have htrusted := hsessions { initialCapacity := 4 } 0 0 (lockingEvents ++ refusedEvents)
    obtain ⟨-, hkept⟩ := htrusted.readOnly lockingEvents refusedEvents rfl sb hsb hro hunlocks
    exact ⟨sb, hsb, hro, htext, sb', hsb', hname, (hkept sb' hsb' hid).2.trans htext⟩

end TextStore
