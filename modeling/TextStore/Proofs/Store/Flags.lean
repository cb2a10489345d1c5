import TextStore.Proofs.Gap.Effects
import TextStore.Proofs.Store.BufferCalls
import TextStore.Store.Edit

/-!
# Both flags of a buffer are respected

* `Respects unlocked cleared b b'` : on the way from `b` to `b'` a read-only buffer kept its text,
  unless it was unlocked, and a buffer that ends unmodified kept it, unless the flag was cleared. This
  goes on from one operation to the next (`Respects.trans`), so it is proved of one operation
  (`Effect.respects`) and holds of whatever is made of operations: runs, replays of any history and
  recorded edits (`respects_run`, `BufferCall.respects`, `edit_respects`);
* `SetsByEdit` : what sets the modified flag, and what therefore does not (`setsByEdit`);
* `cleanText` : the text at the last point where calls cleared the modified flag, or at their start.
  A buffer that is not modified holds it (`contents_eq_cleanText`);
* `TrustedFlags` : what both flags say about a buffer after calls (`trustedFlags`).
-/

namespace TextStore

namespace GapBuffer

variable {b b' b'' : GapBuffer} {op : GapOp} {answer : Except BufferError Unit}
  {unlocked cleared unlocked' cleared' : Prop}

/-- What the flags of a buffer promise on the way from `b` to `b'`. -/
structure Respects (unlocked cleared : Prop) (b b' : GapBuffer) : Prop where
  wellFormed : b'.WellFormed
  readOnly : b.readOnly = true → ¬ unlocked → b'.readOnly = true ∧ b'.contents = b.contents
  modified : b'.modified = false → ¬ cleared → b.modified = false ∧ b'.contents = b.contents

namespace Respects

/-- Neither the text nor a flag changed. -/
theorem of_same (hb' : b'.WellFormed) (hro : b'.readOnly = b.readOnly)
    (hmodified : b'.modified = b.modified) (hcontents : b'.contents = b.contents) :
    Respects unlocked cleared b b' :=
  ⟨hb', fun h _ => ⟨hro.trans h, hcontents⟩, fun h _ => ⟨hmodified.symm.trans h, hcontents⟩⟩

theorem refl (hb : b.WellFormed) : Respects unlocked cleared b b := .of_same hb rfl rfl rfl

theorem mono (h : Respects unlocked cleared b b') (hunlocked : unlocked → unlocked')
    (hcleared : cleared → cleared') : Respects unlocked' cleared' b b' :=
  ⟨h.wellFormed, fun hro hno => h.readOnly hro fun hyes => hno (hunlocked hyes),
    fun hmodified hno => h.modified hmodified fun hyes => hno (hcleared hyes)⟩

theorem trans (h : Respects unlocked cleared b b') (h' : Respects unlocked cleared b' b'') :
    Respects unlocked cleared b b'' := by
  refine ⟨h'.wellFormed, ?_, ?_⟩
  · intro hro hno
    obtain ⟨hro', hsame⟩ := h.readOnly hro hno
    obtain ⟨hro'', hsame'⟩ := h'.readOnly hro' hno
    exact ⟨hro'', hsame'.trans hsame⟩
  · intro hmodified hno
    obtain ⟨hmodified', hsame'⟩ := h'.modified hmodified hno
    obtain ⟨hmodified₀, hsame⟩ := h.modified hmodified' hno
    exact ⟨hmodified₀, hsame'.trans hsame⟩

end Respects

/-! ## One operation -/

theorem modified_placeGap (b : GapBuffer) (pos : Nat) :
    (b.placeGap pos).modified = b.modified := by
  unfold placeGap
  split
  · rfl
  · split <;> rfl

/-- A read-only buffer lets no edit through, and an edit that gets through leaves the buffer
modified; everything else keeps the text. -/
theorem Effect.respects (h : b.Effect op answer b') (hb : b.WellFormed) :
    Respects (op = .setReadOnly false) (op.marks? = some false) b b' := by
  cases h with
  | refused op e => exact .refl hb
  | nothing op hnone => exact .refl hb
  | @inserted op pos bytes b₁ hop hne hpos hw hroom =>
    have hb₁ := (hroom.becomes hb).wellFormed
    have hlen₁ := hroom.length_eq hb
    have hruns := filled_runs hb₁ (hlen₁ ▸ hpos) (hroom.le_gapLength hb)
    refine ⟨hruns.wellFormed, ?_, nofun⟩
    intro hro
    rw [hw] at hro
    cases hro
  | deleted op hop hlt hstop hw =>
    have hruns := absorbed_runs hb (Nat.le_of_lt hlt) hstop
    refine ⟨hruns.wellFormed, ?_, nofun⟩
    intro hro
    rw [hw] at hro
    cases hro
  | @moved pos hpos =>
    have hruns := placeGap_runs hb hpos
    refine .of_same hruns.wellFormed (readOnly_placeGap b pos) (modified_placeGap b pos) ?_
    rw [hruns.contents, List.take_append_drop]
  | reserved hroom =>
    have hb₁ := hroom.becomes hb
    exact .of_same hb₁.wellFormed hb₁.readOnly hroom.modified_eq hb₁.contents
  | locked on =>
    cases on with
    | true => exact ⟨hb, fun _ _ => ⟨rfl, rfl⟩, fun hmodified _ => ⟨hmodified, rfl⟩⟩
    | false => exact ⟨hb, fun _ hno => absurd rfl hno, fun hmodified _ => ⟨hmodified, rfl⟩⟩
  | @marked op on hop =>
    refine ⟨hb, fun hro _ => ⟨hro, rfl⟩, fun hmodified hno => absurd ?_ hno⟩
    obtain rfl : on = false := hmodified
    exact hop

/-- Only an accepted edit of at least one byte sets the modified flag, apart from what sets nothing
but the flag. -/
def SetsByEdit (mem : Memory) (b : GapBuffer) (op : GapOp) : Prop :=
  (op.perform mem b).2.modified = true →
    b.modified = true ∨ op.marks? = some true ∨
      (op.perform mem b).1 = .ok () ∧
        ((∃ pos bytes, op.inserted? = some (pos, bytes) ∧ bytes ≠ []) ∨
          ∃ start stop, op.deleted? b = some (start, stop) ∧ start < stop)

theorem setsByEdit (mem : Memory) (hb : b.WellFormed) (op : GapOp) : SetsByEdit mem b op := by
  intro hset
  have heffect := effect_perform mem hb op
  generalize (op.perform mem b).1 = answer, (op.perform mem b).2 = b' at heffect hset
  cases heffect with
  | refused op e => exact .inl hset
  | nothing op hnone => exact .inl hset
  | inserted op hop hne => exact .inr (.inr ⟨rfl, .inl ⟨_, _, hop, hne⟩⟩)
  | deleted op hop hlt => exact .inr (.inr ⟨rfl, .inr ⟨_, _, hop, hlt⟩⟩)
  | @moved pos hpos =>
    rw [modified_placeGap] at hset
    exact .inl hset
  | reserved hroom =>
    rw [hroom.modified_eq] at hset
    exact .inl hset
  | locked on => exact .inl hset
  | @marked op on hop =>
    obtain rfl : on = true := hset
    exact .inr (.inl hop)

/-! ## Operations in turn -/

theorem respects_perform (mem : Memory) (hb : b.WellFormed) (op : GapOp) :
    Respects (op = .setReadOnly false) (op.marks? = some false) b (op.perform mem b).2 :=
  (effect_perform mem hb op).respects hb

theorem respects_insert (mem : Memory) (hb : b.WellFormed) (pos : Nat) (bytes : List UInt8) :
    Respects unlocked cleared b (b.insert mem pos bytes).2 :=
  (respects_perform mem hb (.insert pos bytes)).mono nofun nofun

theorem respects_delete (hb : b.WellFormed) (start stop : Nat) :
    Respects unlocked cleared b (b.delete start stop).2 :=
  (respects_perform .ample hb (.delete start stop)).mono nofun nofun

/-- What respects the flags one at a time does so in turn. -/
theorem respects_foldl {α : Type} {f : GapBuffer → α → GapBuffer} {unlocks clears : α → Prop}
    (hf : ∀ b : GapBuffer, b.WellFormed → ∀ a, Respects (unlocks a) (clears a) b (f b a))
    (hb : b.WellFormed) (steps : List α) :
    Respects (∃ a ∈ steps, unlocks a) (∃ a ∈ steps, clears a) b (steps.foldl f b) := by
  induction steps generalizing b with
  | nil => exact .refl hb
  | cons first rest ih =>
    have hfirst := hf b hb first
    refine .trans (hfirst.mono ?_ ?_) ((ih hfirst.wellFormed).mono ?_ ?_)
    · exact fun h => ⟨first, List.mem_cons_self, h⟩
    · exact fun h => ⟨first, List.mem_cons_self, h⟩
    · exact fun ⟨later, hmem, h⟩ => ⟨later, List.mem_cons_of_mem _ hmem, h⟩
    · exact fun ⟨later, hmem, h⟩ => ⟨later, List.mem_cons_of_mem _ hmem, h⟩

theorem respects_run (hb : b.WellFormed) (steps : List (Memory × GapOp)) :
    Respects (∃ step ∈ steps, step.2 = .setReadOnly false)
      (∃ step ∈ steps, step.2.marks? = some false) b (b.run steps).2 := by
  rw [run_snd]
  exact respects_foldl (fun b hb step => respects_perform step.1 hb step.2) hb steps

end GapBuffer

/-! ## Calls -/

theorem ReplayCall.gapOp_ne_setReadOnly (call : ReplayCall) (on : Bool) :
    call.gapOp ≠ .setReadOnly on := by
  cases call <;> exact nofun

theorem ReplayCall.marks?_gapOp (call : ReplayCall) : call.gapOp.marks? = none := by
  cases call <;> rfl

namespace BufferCall

/-- Whether the call lets the buffer accept edits. -/
def unlocks : BufferCall → Bool
  | perform _ (.setReadOnly false) => true
  | _ => false

/-- Whether the call clears the modified flag. -/
def clears : BufferCall → Bool
  | perform _ op => op.marks? == some false
  | replay _ _ _ _ => false

/-- No call of a replay sets a flag. -/
theorem respects {b : GapBuffer} (hb : b.WellFormed) (call : BufferCall) :
    b.Respects (call.unlocks = true) (call.clears = true) (call.apply b) := by
  cases call with
  | perform mem op =>
    refine (GapBuffer.respects_perform mem hb op).mono ?_ ?_
    · rintro rfl
      rfl
    · intro hop
      simp [clears, hop]
  | replay mem now d h =>
    have hrun := GapBuffer.respects_run hb (performed b (.replay mem now d h))
    rw [run_performed] at hrun
    refine hrun.mono ?_ ?_
    · rintro ⟨step, hstep, hop⟩
      obtain ⟨made, -, rfl⟩ := List.mem_map.1 hstep
      exact absurd hop (made.call.gapOp_ne_setReadOnly false)
    · rintro ⟨step, hstep, hop⟩
      obtain ⟨made, -, rfl⟩ := List.mem_map.1 hstep
      rw [made.call.marks?_gapOp] at hop
      cases hop

end BufferCall

namespace GapBuffer

variable {b : GapBuffer}

theorem respects_runCalls (hb : b.WellFormed) (calls : List BufferCall) :
    Respects (∃ call ∈ calls, call.unlocks = true) (∃ call ∈ calls, call.clears = true) b
      (b.runCalls calls) :=
  respects_foldl (fun _ hb call => call.respects hb) hb calls

/-- The text at the last call that clears the modified flag, or `clean` when none does. -/
def cleanText (b : GapBuffer) (clean : List UInt8) : List BufferCall → List UInt8
  | [] => clean
  | call :: rest =>
    cleanText (call.apply b) (if call.clears then (call.apply b).contents else clean) rest

theorem contents_eq_cleanText (hb : b.WellFormed) {clean : List UInt8}
    (hclean : b.modified = false → b.contents = clean) (calls : List BufferCall)
    (hmodified : (b.runCalls calls).modified = false) :
    (b.runCalls calls).contents = b.cleanText clean calls := by
  induction calls generalizing b clean with
  | nil => exact hclean hmodified
  | cons call rest ih =>
    have hcall := call.respects hb
    refine ih hcall.wellFormed ?_ hmodified
    intro hunmodified
    split
    · rfl
    · next hkept =>
      obtain ⟨hbefore, hsame⟩ := hcall.modified hunmodified hkept
      rw [hsame]
      exact hclean hbefore

/-- What the flags of a buffer say after calls. -/
structure TrustedFlags (b : GapBuffer) (calls : List BufferCall) : Prop where
  /-- A buffer that was read-only at some moment, and did not accept edits again after it, still has
  its text. -/
  readOnly : ∀ before later, calls = before ++ later → (b.runCalls before).readOnly = true →
    (∀ call ∈ later, call.unlocks = false) →
      (b.runCalls calls).readOnly = true ∧
        (b.runCalls calls).contents = (b.runCalls before).contents
  /-- A buffer that is not modified has the text it had when the flag was last cleared, or else its
  first text. -/
  modified : (b.runCalls calls).modified = false →
    (b.runCalls calls).contents = b.cleanText b.contents calls
  sets : ∀ mem op, SetsByEdit mem (b.runCalls calls) op

theorem trustedFlags (hb : b.WellFormed) (calls : List BufferCall) : b.TrustedFlags calls := by
  have hcalls := respects_runCalls hb calls
  refine ⟨?_, ?_, fun mem op => setsByEdit mem hcalls.wellFormed op⟩
  · rintro before later rfl hro hlocked
    have hbefore := respects_runCalls hb before
    have hlater := respects_runCalls hbefore.wellFormed later
    rw [runCalls, List.foldl_append]
    refine hlater.readOnly hro ?_
    rintro ⟨call, hcall, hunlocks⟩
    rw [hlocked call hcall] at hunlocks
    cases hunlocks
  · exact contents_eq_cleanText hb (fun _ => rfl) calls

end GapBuffer

/-! ## Recorded edits -/

namespace StoredBuffer

variable {sb : StoredBuffer} {unlocked cleared : Prop}

open GapBuffer (Respects respects_insert respects_delete)

theorem splice_respects (hb : sb.buffer.WellFormed) (mem : Memory) (start stop : Nat)
    (text : List UInt8) :
    Respects unlocked cleared sb.buffer (sb.splice mem start stop text).2.buffer := by
  have hdelete : Respects unlocked cleared sb.buffer (sb.buffer.delete start stop).2 :=
    respects_delete hb start stop
  unfold splice
  rcases sb.buffer.extract mem start stop with e | removed
  · exact .refl hb
  rcases hb₁ : sb.buffer.delete start stop with ⟨e | ⟨⟩, b₁⟩
  · rw [hb₁] at hdelete
    exact hdelete
  rw [hb₁] at hdelete
  have hinsert : Respects unlocked cleared b₁ (b₁.insert mem start text).2 :=
    respects_insert mem hdelete.wellFormed start text
  simp only
  rcases hb₂ : b₁.insert mem start text with ⟨e | ⟨⟩, b₂⟩
  · rw [hb₂] at hinsert
    -- the removed text goes back in
    have hback : Respects unlocked cleared b₂ (b₂.insert mem start removed).2 :=
      respects_insert mem hinsert.wellFormed start removed
    simp only
    rcases hb₃ : b₂.insert mem start removed with ⟨e' | ⟨⟩, b₃⟩ <;> rw [hb₃] at hback <;>
      exact (hdelete.trans hinsert).trans hback
  · rw [hb₂] at hinsert
    exact hdelete.trans hinsert

theorem unsplice_respects (hb : sb.buffer.WellFormed) (mem : Memory) (start : Nat)
    (removed inserted : List UInt8) :
    Respects unlocked cleared sb.buffer (sb.unsplice mem start removed inserted).2.buffer := by
  have hdelete : Respects unlocked cleared sb.buffer
      (sb.buffer.delete start (start + inserted.length)).2 := respects_delete hb _ _
  unfold unsplice
  rcases hb₁ : sb.buffer.delete start (start + inserted.length) with ⟨e | ⟨⟩, b₁⟩
  · rw [hb₁] at hdelete
    exact hdelete
  · rw [hb₁] at hdelete
    exact hdelete.trans (respects_insert mem hdelete.wellFormed start removed)

/-- A recorded edit respects the flags also where it is put back. -/
theorem edit_respects (hb : sb.buffer.WellFormed) (mem : Memory) (now cursor start stop : Nat)
    (text : List UInt8) :
    Respects unlocked cleared sb.buffer (sb.edit mem now cursor start stop text).2.buffer := by
  have hsplice : Respects unlocked cleared sb.buffer (sb.splice mem start stop text).2.buffer :=
    splice_respects hb mem start stop text
  unfold edit
  rcases hsb₁ : sb.splice mem start stop text with ⟨e | removed, sb₁⟩
  · rw [hsb₁] at hsplice
    exact hsplice
  rw [hsb₁] at hsplice
  have hkept : (sb₁.recordSplice mem now cursor start removed text).2.buffer = sb₁.buffer := rfl
  simp only
  rcases hsb₂ : sb₁.recordSplice mem now cursor start removed text with ⟨e | ⟨⟩, sb₂⟩
  · rw [hsb₂] at hkept
    have hunsplice : Respects unlocked cleared sb₂.buffer
        (sb₂.unsplice mem start removed text).2.buffer :=
      unsplice_respects (hkept ▸ hsplice.wellFormed) mem start removed text
    rw [hkept] at hunsplice
    simp only
    rcases hsb₃ : sb₂.unsplice mem start removed text with ⟨e' | ⟨⟩, sb₃⟩ <;>
      rw [hsb₃] at hunsplice <;> exact hsplice.trans hunsplice
  · rw [hsb₂] at hkept
    show Respects _ _ _ sb₂.buffer
    rw [hkept]
    exact hsplice

theorem undo_respects (hb : sb.buffer.WellFormed) (mem : Memory) (now : Nat) :
    Respects unlocked cleared sb.buffer (sb.undo mem now).2.buffer :=
  ((BufferCall.replay mem now .back sb.history).respects hb).mono nofun nofun

theorem redo_respects (hb : sb.buffer.WellFormed) (mem : Memory) (now : Nat) :
    Respects unlocked cleared sb.buffer (sb.redo mem now).2.buffer :=
  ((BufferCall.replay mem now .on sb.history).respects hb).mono nofun nofun

end StoredBuffer

end TextStore
