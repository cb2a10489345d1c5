import TextStore.Proofs.Gap.Sizes
import TextStore.Proofs.History.Numbering
import TextStore.Proofs.Store.Edit
import TextStore.Proofs.Store.Snapshots

/-!
# Replaying a history within its buffer

* `sizes_replay_apply`, `sizes_replay_revert` : operations between texts that are not longer than
  the longest one a buffer has held are replayed without changing its sizes;
* `Held b h` : every text along the history was held by the buffer, so none is longer than the mark
  of its longest one. Edits and the calls of a desk keep this up (`Held.edit`, `Held.run`), and
  undo and redo leave the sizes alone besides (`Held.undo`, `Held.redo`).
-/

namespace TextStore

namespace GapBuffer

variable {b : GapBuffer} {t t' : List UInt8} {limit : Nat}

/-! ## Replays on a gap buffer -/

theorem sizes_apply (mem : Memory) (hb : b.WellFormed) (hmax : b.counters.maxLength ≤ b.capacity)
    {op : Operation} (hop : op.Splices b.contents t') (hfits : t'.length ≤ b.counters.maxLength) :
    (op.apply (replayTarget mem) b).2.sizes = b.sizes := by
  cases hro : b.readOnly with
  | true => rw [apply_of_readOnly mem hb hro hop]
  | false =>
    have hlen := length_contents hb
    obtain ⟨id, position, edit, cursorBefore, cursorAfter, recordedAt⟩ := op
    obtain ⟨pre, post, rfl, ht, rfl⟩ := hop
    rw [ht] at hlen
    cases edit with
    | insert text =>
      simp only [Edit.deletedText, List.length_append, List.length_nil] at hlen
      simp only [Edit.insertedText, List.length_append] at hfits
      exact sizes_insert hb mem pre.length (by omega) hmax
    | delete text => exact sizes_delete hb pre.length (pre.length + text.length)
    | replace deleted inserted =>
      -- what is left between the two calls is shorter than the text they lead to
      obtain ⟨b₁, heq₁, hb₁⟩ := deleteSpan_of_writable mem hb hro deleted ht
      have hsizes₁ : b₁.sizes = b.sizes := by
        rw [← sizes_delete hb pre.length (pre.length + deleted.length)]
        exact congrArg (fun answer => answer.2.sizes) heq₁.symm
      have hlen₁ := length_contents hb₁.wellFormed
      have hmax₁ := congrArg Sizes.maxLength hsizes₁
      have hcap₁ := congrArg Sizes.capacity hsizes₁
      simp only [sizes] at hmax₁ hcap₁
      rw [hb₁.contents] at hlen₁
      simp only [Edit.insertedText, List.length_append] at hlen₁ hfits
      simp only [Operation.apply, heq₁]
      exact (sizes_insert hb₁.wellFormed mem pre.length (by omega) (by omega)).trans hsizes₁

theorem sizes_replay_apply (mem : Memory) (hb : b.WellFormed)
    (hlimit : limit ≤ b.counters.maxLength) (hmax : b.counters.maxLength ≤ b.capacity)
    {ops : List Operation} (hops : Leads (Turns limit) ops b.contents t') :
    (History.replay (fun op => op.apply (replayTarget mem)) ops b).2.sizes = b.sizes := by
  induction ops generalizing b with
  | nil => rfl
  | cons op rest ih =>
    obtain ⟨mid, hop, hrest⟩ := hops
    have hfits := Nat.le_trans hop.after hlimit
    cases hro : b.readOnly with
    | true => simp only [History.replay, apply_of_readOnly mem hb hro hop.splices]
    | false =>
      have hsizes := sizes_apply mem hb hmax hop.splices hfits
      obtain ⟨b₁, heq₁, hb₁⟩ := apply_of_splices mem hb hro hop.splices (Nat.le_trans hfits hmax)
      rw [heq₁] at hsizes
      have hmax₁ : b₁.counters.maxLength = b.counters.maxLength := congrArg Sizes.maxLength hsizes
      have hcap₁ : b₁.capacity = b.capacity := congrArg Sizes.capacity hsizes
      rw [← hb₁.contents] at hrest
      simp only [History.replay, heq₁]
      exact (ih hb₁.wellFormed (by omega) (by omega) hrest).trans hsizes

theorem sizes_replay_revert (mem : Memory) (hb : b.WellFormed)
    (hlimit : limit ≤ b.counters.maxLength) (hmax : b.counters.maxLength ≤ b.capacity)
    {ops : List Operation} (hops : Leads (Turns limit) ops t b.contents) :
    (History.replay (fun op => op.revert (replayTarget mem)) ops.reverse b).2.sizes = b.sizes := by
  rw [replay_revert_eq]
  exact sizes_replay_apply mem hb hlimit hmax hops.flip

end GapBuffer

/-! ## Replays of an outline -/

section Outlines

variable {K : Transition} {T : Nat → List UInt8} {b : GapBuffer} {o : Outline}

theorem sizes_outline_undo (mem : Memory) (hb : b.Sized)
    (ht : o.Tracks (Known K b.counters.maxLength) T b.contents) (ho : o.opened = none) :
    (o.undo (GapBuffer.replayTarget mem) b).2.2.sizes = b.sizes := by
  rw [Outline.undo, Outline.close_of_none ho]
  cases hg : o.undoable.getLast? with
  | none => rfl
  | some g =>
    have hleads : Leads (Turns b.counters.maxLength) g.operations (T (o.undoable.length - 1))
        b.contents := by
      rw [← ht.eq_of_nil (Outline.openOperations_of_none ho)]
      exact (ht.current hg).2.mono And.left
    have hsizes := GapBuffer.sizes_replay_revert mem hb.wellFormed (Nat.le_refl _) hb.maxLength_le
      hleads
    simp only [← History.replay_revertCalls]
    split
    · next heq =>
      rw [heq] at hsizes
      exact hsizes
    · next heq =>
      rw [heq] at hsizes
      exact hsizes

theorem sizes_outline_redo (mem : Memory) (hb : b.Sized)
    (ht : o.Tracks (Known K b.counters.maxLength) T b.contents) (ho : o.opened = none) :
    (o.redo (GapBuffer.replayTarget mem) b).2.2.sizes = b.sizes := by
  rw [Outline.redo, Outline.close_of_none ho]
  cases hg : o.redoable with
  | nil => rfl
  | cons g rest =>
    have hleads : Leads (Turns b.counters.maxLength) g.operations b.contents
        (T (o.undoable.length + 1)) := by
      rw [← ht.eq_of_nil (Outline.openOperations_of_none ho)]
      exact (ht.next hg).2.mono And.left
    have hsizes := GapBuffer.sizes_replay_apply mem hb.wellFormed (Nat.le_refl _) hb.maxLength_le
      hleads
    simp only [← History.replay_applyCalls]
    split
    · next heq =>
      rw [heq] at hsizes
      exact hsizes
    · next heq =>
      rw [heq] at hsizes
      exact hsizes

end Outlines

/-! ## The operations of a history -/

/-- Both texts of a splice fit in where it is made. -/
theorem Turns.within {limit : Nat} {op : Operation} {t t' : List UInt8} (h : Turns limit op t t') :
    op.position + op.edit.insertedText.length ≤ limit ∧
      op.position + op.edit.deletedText.length ≤ limit := by
  obtain ⟨⟨pre, post, hpre, rfl, rfl⟩, hbefore, hafter⟩ := h
  simp only [List.length_append] at hbefore hafter
  omega

theorem Leads.of_mem {R : Transition} {ops : List Operation} {t t' : List UInt8}
    (h : Leads R ops t t') {op : Operation} (hop : op ∈ ops) : ∃ mid mid', R op mid mid' := by
  induction ops generalizing t with
  | nil => cases hop
  | cons first rest ih =>
    obtain ⟨mid, hfirst, hrest⟩ := h
    rcases List.mem_cons.1 hop with rfl | hop
    · exact ⟨t, mid, hfirst⟩
    · exact ih hrest hop

/-- Every operation that a history holds led from some text to another. -/
theorem InStep.of_mem {K : Transition} {limit : Nat} {T : Nat → List UInt8} {b : GapBuffer}
    {h : History} (hs : InStep K limit T b h) {op : Operation}
    (hop : op ∈ h.operations ++ h.openOperations) : ∃ t t', Known K limit op t t' := by
  rcases List.mem_append.1 hop with hcommitted | hopen
  · have hall := History.flatMap_groupOf (h := h) hs.history.tiled
    rw [List.drop_zero, Nat.sub_zero, List.take_length] at hall
    rw [← hall] at hcommitted
    obtain ⟨g, hg, hop⟩ := List.mem_flatMap.1 hcommitted
    obtain ⟨i, hi⟩ := List.mem_iff_getElem?.1 hg
    rw [show h.sequences.map h.groupOf = _ from h.groups_eq] at hi
    exact (hs.texts.committed i g hi).2.of_mem hop
  · exact hs.texts.pending.of_mem hopen

/-! ## Buffers that have held every text of their history -/

/-- The buffer has held every text along its history. -/
def Held (b : GapBuffer) (h : History) : Prop :=
  ∃ T, InStep (fun _ _ _ => True) b.counters.maxLength T b h

variable {b b' : GapBuffer} {h h' : History}

namespace Held

theorem new (hb : b.Sized) (settings : HistorySettings) : Held b { settings } :=
  ⟨fun _ => b.contents, hb.wellFormed, History.wellFormed_new settings, hb.maxLength_le,
    by rw [GapBuffer.length_contents hb.wellFormed]; exact hb.length_le,
    .of_nil rfl (.nil _) rfl rfl⟩

theorem sized (hs : Held b h) : b.Sized := by
  obtain ⟨T, hs⟩ := hs
  have hlen := hs.length_le
  rw [GapBuffer.length_contents hs.buffer] at hlen
  exact ⟨hs.buffer, hlen, hs.limit_le⟩

theorem becomes (hs : Held b h) (hb' : b.Becomes b' b.contents) (hswells : b.Swells b') :
    Held b' h := by
  obtain ⟨T, hs⟩ := hs
  exact ⟨T, (hs.becomes hb').raise hswells.maxLength_le hswells.sized.maxLength_le⟩

theorem record (hs : Held b h) {mem : Memory} {now position cursorBefore cursorAfter : Nat}
    {edit : Edit} {pre post : List UInt8}
    (hrecord : h.record mem now position edit cursorBefore cursorAfter = (.ok (), h'))
    (hpre : pre.length = position) (hbefore : b.contents = pre ++ edit.deletedText ++ post)
    (hb' : b.Becomes b' (pre ++ edit.insertedText ++ post)) (hswells : b.Swells b') :
    Held b' h' := by
  obtain ⟨T, hs⟩ := hs
  refine hs.record_ok hrecord hb'.wellFormed hswells.maxLength_le hswells.sized.maxLength_le ?_
    ⟨pre, post, hpre, hbefore, hb'.contents⟩ trivial
  rw [GapBuffer.length_contents hb'.wellFormed]
  exact hswells.sized.length_le

/-! ## Replaying -/

theorem sizes_undo (hs : Held b h) (mem : Memory) (now : Nat) :
    (h.undo mem now (GapBuffer.replayTarget mem) b).2.2.sizes = b.sizes := by
  have hsized := hs.sized
  obtain ⟨T, hs⟩ := hs
  rcases History.outline_undo mem now hs.history (GapBuffer.replayTarget mem) b with ⟨-, -, heq⟩ |
    ⟨answer, h', b', heq, -, hundo⟩
  · rw [heq]
  · obtain ⟨T', -, ht⟩ := hs.texts.close
    have hsizes := sizes_outline_undo mem hsized ht h.outline.opened_close
    rw [Outline.undo_close, hundo] at hsizes
    rw [heq]
    exact hsizes

theorem sizes_redo (hs : Held b h) (mem : Memory) (now : Nat) :
    (h.redo mem now (GapBuffer.replayTarget mem) b).2.2.sizes = b.sizes := by
  have hsized := hs.sized
  obtain ⟨T, hs⟩ := hs
  rcases History.outline_redo mem now hs.history (GapBuffer.replayTarget mem) b with ⟨-, -, heq⟩ |
    ⟨answer, h', b', heq, -, hredo⟩
  · rw [heq]
  · obtain ⟨T', -, ht⟩ := hs.texts.close
    have hsizes := sizes_outline_redo mem hsized ht h.outline.opened_close
    rw [Outline.redo_close, hredo] at hsizes
    rw [heq]
    exact hsizes

theorem of_sizes {T : Nat → List UInt8}
    (hs : InStep (fun _ _ _ => True) b.counters.maxLength T b' h') (hsizes : b'.sizes = b.sizes) :
    Held b' h' := by
  have hmax : b'.counters.maxLength = b.counters.maxLength := congrArg Sizes.maxLength hsizes
  rw [← hmax] at hs
  exact ⟨T, hs⟩

theorem undo (hs : Held b h) (mem : Memory) (now : Nat) :
    Held (h.undo mem now (GapBuffer.replayTarget mem) b).2.2
      (h.undo mem now (GapBuffer.replayTarget mem) b).2.1 := by
  have hsizes := hs.sizes_undo mem now
  obtain ⟨T, hs⟩ := hs
  obtain ⟨T', hs'⟩ := hs.undo mem now
  exact .of_sizes hs' hsizes

theorem redo (hs : Held b h) (mem : Memory) (now : Nat) :
    Held (h.redo mem now (GapBuffer.replayTarget mem) b).2.2
      (h.redo mem now (GapBuffer.replayTarget mem) b).2.1 := by
  have hsizes := hs.sizes_redo mem now
  obtain ⟨T, hs⟩ := hs
  obtain ⟨T', hs'⟩ := hs.redo mem now
  exact .of_sizes hs' hsizes

end Held

/-! ## Edits -/

namespace StoredBuffer

variable {sb : StoredBuffer}

theorem swells_splice (hb : sb.buffer.Sized) (mem : Memory) (start stop : Nat) (text : List UInt8) :
    sb.buffer.Swells (sb.splice mem start stop text).2.buffer := by
  unfold splice
  split
  · exact .refl hb
  · next removed _ =>
    have hdelete := GapBuffer.swells_delete hb start stop
    split
    · next heq =>
      rw [heq] at hdelete
      exact hdelete
    · next heq =>
      rw [heq] at hdelete
      have hinsert := hdelete.trans (GapBuffer.swells_insert hdelete.sized mem start text)
      split
      · next heq =>
        rw [heq] at hinsert
        exact hinsert
      · next heq =>
        rw [heq] at hinsert
        have hback := hinsert.trans (GapBuffer.swells_insert hinsert.sized mem start removed)
        split
        · next heq =>
          rw [heq] at hback
          exact hback
        · next heq =>
          rw [heq] at hback
          exact hback

theorem swells_unsplice (hb : sb.buffer.Sized) (mem : Memory) (start : Nat)
    (removed inserted : List UInt8) :
    sb.buffer.Swells (sb.unsplice mem start removed inserted).2.buffer := by
  have hdelete := GapBuffer.swells_delete hb start (start + inserted.length)
  unfold unsplice
  split
  · next heq =>
    rw [heq] at hdelete
    exact hdelete
  · next heq =>
    rw [heq] at hdelete
    exact hdelete.trans (GapBuffer.swells_insert hdelete.sized mem start removed)

theorem swells_edit (hb : sb.buffer.Sized) (mem : Memory) (now cursor start stop : Nat)
    (text : List UInt8) :
    sb.buffer.Swells (sb.edit mem now cursor start stop text).2.buffer := by
  have hsplice := swells_splice hb mem start stop text
  unfold edit
  split
  · next heq =>
    rw [heq] at hsplice
    exact hsplice
  · next removed sb₁ heq =>
    rw [heq] at hsplice
    -- recording leaves the buffer alone
    have hrecord : (sb₁.recordSplice mem now cursor start removed text).2.buffer = sb₁.buffer := rfl
    split
    · next heq =>
      rw [heq] at hrecord
      exact hrecord ▸ hsplice
    · next sb₂ heq =>
      rw [heq] at hrecord
      have hsplice₂ : sb.buffer.Swells sb₂.buffer := hrecord ▸ hsplice
      have hunsplice := hsplice₂.trans (swells_unsplice hsplice₂.sized mem start removed text)
      split
      · next heq =>
        rw [heq] at hunsplice
        exact hunsplice
      · next heq =>
        rw [heq] at hunsplice
        exact hunsplice

end StoredBuffer

theorem Held.edit {sb : StoredBuffer} (hs : Held sb.buffer sb.history) (mem : Memory)
    (now cursor start stop : Nat) (text : List UInt8) :
    Held (sb.edit mem now cursor start stop text).2.buffer
      (sb.edit mem now cursor start stop text).2.history := by
  have hswells := StoredBuffer.swells_edit hs.sized mem now cursor start stop text
  obtain ⟨T, hs⟩ := hs
  refine hs.edit_within mem now cursor start stop text (fun _ _ _ => trivial) hswells.maxLength_le
    hswells.sized.maxLength_le ?_
  rw [GapBuffer.length_contents hswells.sized.wellFormed]
  exact hswells.sized.length_le

/-! ## Desks -/

namespace Held

theorem step {d d' : Desk} (hs : Held d.buffer d.history) (hstep : d.Step d') :
    Held d'.buffer d'.history := by
  have hb := hs.sized
  obtain ⟨T, hin⟩ := id hs
  cases hstep with
  | @insert mem mem' now pos cursorBefore cursorAfter text b h hinsert hrecord =>
    obtain ⟨hpos, hb'⟩ := GapBuffer.insert_of_ok hb.wellFormed hinsert
    have hswells := GapBuffer.swells_insert hb mem pos text
    rw [hinsert] at hswells
    refine hs.record hrecord (GapBuffer.length_take_contents hb.wellFormed hpos) ?_ hb' hswells
    rw [Edit.deletedText, List.append_nil, List.take_append_drop]
  | @delete mem now start stop cursorBefore cursorAfter b h hdelete hrecord =>
    obtain ⟨hle, hstop, hb'⟩ := GapBuffer.delete_of_ok hb.wellFormed hdelete
    have hswells := GapBuffer.swells_delete hb start stop
    rw [hdelete] at hswells
    refine hs.record hrecord (GapBuffer.length_take_contents hb.wellFormed (Nat.le_trans hle hstop))
      (GapBuffer.eq_before_in_after hle _) ?_ hswells
    rw [Edit.insertedText, List.append_nil]
    exact hb'
  | @replace mem mem' now start stop cursorBefore cursorAfter text b₁ b h hdelete hinsert hrecord =>
    obtain ⟨hle, hstop, -⟩ := GapBuffer.delete_of_ok hb.wellFormed hdelete
    have hswells := GapBuffer.swells_delete hb start stop
    rw [hdelete] at hswells
    have hswells' := GapBuffer.swells_insert hswells.sized mem start text
    rw [hinsert] at hswells'
    exact hs.record hrecord (GapBuffer.length_take_contents hb.wellFormed (Nat.le_trans hle hstop))
      (GapBuffer.eq_before_in_after hle _)
      (GapBuffer.replace_of_ok hb.wellFormed hdelete hinsert) (hswells.trans hswells')
  | beginSequence mem now => exact hin.beginSequence mem now
  | closeSequence mem now => exact hin.closeSequence mem now
  | undo mem now => exact hs.undo mem now
  | redo mem now => exact hs.redo mem now
  | clear => exact ⟨_, hin.clear⟩
  | moveGap pos =>
    exact hs.becomes (GapBuffer.moveGap_becomes hb.wellFormed pos) (GapBuffer.swells_moveGap hb pos)
  | reserve mem needed =>
    exact hs.becomes (GapBuffer.reserve_becomes mem hb.wellFormed needed)
      (GapBuffer.swells_reserve hb mem needed)
  | setReadOnly on => exact ⟨T, hin.withBuffer hin.buffer rfl (Nat.le_refl _)⟩
  | setModified on => exact ⟨T, hin.withBuffer hin.buffer rfl (Nat.le_refl _)⟩

theorem run {d d' : Desk} (hs : Held d.buffer d.history) (hrun : d.Run d') :
    Held d'.buffer d'.history := by
  induction hrun with
  | start => exact hs
  | step _ hstep ih => exact ih.step hstep

end Held

end TextStore
