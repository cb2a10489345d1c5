import TextStore.Proofs.Gap.Contents
import TextStore.Proofs.History.Timeline
import TextStore.Store.Buffer

/-!
# Replaying operations on a gap buffer

* `Operation.Splices op t t'` : `op` takes its deleted text out of `t` at its position, and `t'` is
  `t` with its inserted text there instead;
* `Operation.flip` : the opposite operation. Taking `op` back is making `op.flip`
  (`revert_eq_apply_flip`), and it leads back (`Splices.flip`);
* `Turns limit` : splices between texts of at most `limit` bytes;
* `replay_apply`, `replay_revert` : operations that led from one text to another are replayed in
  both directions on a writable buffer whose region has `limit` bytes, without any memory;
* `replay_apply_readOnly`, `replay_revert_readOnly` : on a read-only buffer the first of them fails.
-/

namespace TextStore

/-! ## Opposite operations -/

def Edit.flip : Edit → Edit
  | insert text => delete text
  | delete text => insert text
  | replace deleted inserted => replace inserted deleted

namespace Operation

variable {op : Operation} {t t' : List UInt8}

def flip (op : Operation) : Operation := { op with edit := op.edit.flip }

theorem revert_eq_apply_flip {σ : Type} (target : ReplayTarget σ) (op : Operation) :
    op.revert target = op.flip.apply target := by
  obtain ⟨id, position, edit, cursorBefore, cursorAfter, recordedAt⟩ := op
  cases edit <;> rfl

/-- At its position, the operation replaces its deleted text by its inserted text. -/
def Splices (op : Operation) (t t' : List UInt8) : Prop :=
  ∃ pre post : List UInt8, pre.length = op.position ∧
    t = pre ++ op.edit.deletedText ++ post ∧ t' = pre ++ op.edit.insertedText ++ post

theorem Splices.flip (h : op.Splices t t') : op.flip.Splices t' t := by
  obtain ⟨pre, post, hpre, ht, ht'⟩ := h
  obtain ⟨id, position, edit, cursorBefore, cursorAfter, recordedAt⟩ := op
  cases edit <;> exact ⟨pre, post, hpre, ht', ht⟩

end Operation

/-- The operation splices one text into another, neither of them longer than `limit`. -/
structure Turns (limit : Nat) (op : Operation) (t t' : List UInt8) : Prop where
  splices : op.Splices t t'
  before : t.length ≤ limit
  after : t'.length ≤ limit

theorem Turns.flip {limit : Nat} {op : Operation} {t t' : List UInt8} (h : Turns limit op t t') :
    Turns limit op.flip t' t :=
  ⟨h.splices.flip, h.after, h.before⟩

theorem Turns.mono {limit limit' : Nat} {op : Operation} {t t' : List UInt8}
    (h : Turns limit op t t') (hle : limit ≤ limit') : Turns limit' op t t' :=
  ⟨h.splices, Nat.le_trans h.before hle, Nat.le_trans h.after hle⟩

/-- The opposite operations, last one first, lead back. -/
theorem Leads.flip {limit : Nat} {ops : List Operation} {t t' : List UInt8}
    (h : Leads (Turns limit) ops t t') :
    Leads (Turns limit) (ops.reverse.map Operation.flip) t' t := by
  induction ops generalizing t with
  | nil => exact Eq.symm h
  | cons op rest ih =>
    obtain ⟨mid, hop, hrest⟩ := h
    rw [List.reverse_cons, List.map_append]
    exact (ih hrest).append (.single hop.flip)

theorem replay_revert_eq {σ : Type} (target : ReplayTarget σ) (ops : List Operation) (s : σ) :
    History.replay (fun op => op.revert target) ops s =
      History.replay (fun op => op.apply target) (ops.map Operation.flip) s := by
  induction ops generalizing s with
  | nil => rfl
  | cons op rest ih =>
    rw [List.map_cons, History.replay, History.replay, Operation.revert_eq_apply_flip]
    split
    · rfl
    · exact ih _

namespace GapBuffer

variable {b : GapBuffer} {t t' : List UInt8} {limit : Nat}

/-! ## One operation -/

theorem insertAt_of_fits (mem : Memory) (hb : b.WellFormed) (hw : b.readOnly = false)
    {pre post : List UInt8} (hcontents : b.contents = pre ++ post) (text : List UInt8)
    (hfits : (pre ++ text ++ post).length ≤ b.capacity) :
    ∃ b', (replayTarget mem).insertAt pre.length text b = (.ok (), b') ∧
      b.Becomes b' (pre ++ text ++ post) := by
  have hlen := length_contents hb
  simp only [hcontents, List.length_append] at hlen hfits
  obtain ⟨b', heq, hb'⟩ := insert_of_fits mem hb (show pre.length ≤ b.length by omega) hw
    (show b.length + text.length ≤ b.capacity by omega)
  refine ⟨b', by simp only [replayTarget, heq]; rfl, ?_⟩
  rw [hcontents, List.take_left, List.drop_left] at hb'
  exact hb'

theorem deleteSpan_of_writable (mem : Memory) (hb : b.WellFormed) (hw : b.readOnly = false)
    {pre post : List UInt8} (text : List UInt8) (hcontents : b.contents = pre ++ text ++ post) :
    ∃ b', (replayTarget mem).deleteSpan pre.length (pre.length + text.length) b = (.ok (), b') ∧
      b.Becomes b' (pre ++ post) := by
  have hlen := length_contents hb
  simp only [hcontents, List.length_append] at hlen
  obtain ⟨b', heq, hb'⟩ := delete_of_writable hb hw (Nat.le_add_right pre.length text.length)
    (by omega)
  refine ⟨b', by simp only [replayTarget, heq]; rfl, ?_⟩
  rw [hcontents, ← List.length_append, List.drop_left, List.append_assoc, List.take_left] at hb'
  exact hb'

/-- A splice of the text is made on a writable buffer that has room for what it leads to. -/
theorem apply_of_splices (mem : Memory) (hb : b.WellFormed) (hw : b.readOnly = false)
    {op : Operation} (hop : op.Splices b.contents t') (hfits : t'.length ≤ b.capacity) :
    ∃ b', op.apply (replayTarget mem) b = (.ok (), b') ∧ b.Becomes b' t' := by
  obtain ⟨id, position, edit, cursorBefore, cursorAfter, recordedAt⟩ := op
  obtain ⟨pre, post, rfl, ht, rfl⟩ := hop
  cases edit with
  | insert text =>
    simp only [Edit.deletedText, List.append_nil] at ht
    exact insertAt_of_fits mem hb hw ht text hfits
  | delete text =>
    simp only [Edit.insertedText, List.append_nil]
    exact deleteSpan_of_writable mem hb hw text ht
  | replace deleted inserted =>
    obtain ⟨b₁, heq₁, hb₁⟩ := deleteSpan_of_writable mem hb hw deleted ht
    obtain ⟨b₂, heq₂, hb₂⟩ := insertAt_of_fits mem hb₁.wellFormed (hb₁.readOnly.trans hw)
      hb₁.contents inserted (Nat.le_trans hfits hb₁.capacity)
    refine ⟨b₂, ?_, hb₁.trans hb₂⟩
    simp only [Operation.apply, heq₁]
    exact heq₂

/-- A splice of the text is refused by a read-only buffer, in the words of its error. -/
theorem apply_of_readOnly (mem : Memory) (hb : b.WellFormed) (hro : b.readOnly = true)
    {op : Operation} (hop : op.Splices b.contents t') :
    op.apply (replayTarget mem) b = (.error BufferError.readOnly.message, b) := by
  obtain ⟨pre, post, hpre, ht, -⟩ := hop
  have hlen := length_contents hb
  rw [ht, List.length_append, List.length_append, hpre] at hlen
  have hinsert (text : List UInt8) : b.insert mem op.position text = (.error .readOnly, b) := by
    rw [insert, if_neg (by omega), if_pos hro]
  have hdelete : b.delete op.position (op.position + op.edit.deletedText.length) =
      (.error .readOnly, b) := by
    rw [delete, if_neg (by omega), if_pos hro]
  unfold Operation.apply
  cases hedit : op.edit with
  | insert text =>
    simp only [replayTarget, hinsert]
    rfl
  | delete text =>
    rw [hedit, Edit.deletedText] at hdelete
    simp only [replayTarget, hdelete]
    rfl
  | replace deleted inserted =>
    rw [hedit, Edit.deletedText] at hdelete
    simp only [replayTarget, hdelete]
    rfl

/-! ## Operations in a row -/

theorem replay_apply (mem : Memory) (hb : b.WellFormed) (hw : b.readOnly = false)
    (hlimit : limit ≤ b.capacity) {ops : List Operation}
    (hops : Leads (Turns limit) ops b.contents t') :
    ∃ b', History.replay (fun op => op.apply (replayTarget mem)) ops b = (.ok (), b') ∧
      b.Becomes b' t' := by
  induction ops generalizing b with
  | nil =>
    obtain rfl : b.contents = t' := hops
    exact ⟨b, rfl, .refl hb⟩
  | cons op rest ih =>
    obtain ⟨mid, hop, hrest⟩ := hops
    obtain ⟨b₁, heq₁, hb₁⟩ :=
      apply_of_splices mem hb hw hop.splices (Nat.le_trans hop.after hlimit)
    rw [← hb₁.contents] at hrest
    obtain ⟨b₂, heq₂, hb₂⟩ := ih hb₁.wellFormed (hb₁.readOnly.trans hw)
      (Nat.le_trans hlimit hb₁.capacity) hrest
    simp only [History.replay, heq₁]
    exact ⟨b₂, heq₂, hb₁.trans hb₂⟩

theorem replay_revert (mem : Memory) (hb : b.WellFormed) (hw : b.readOnly = false)
    (hlimit : limit ≤ b.capacity) {ops : List Operation}
    (hops : Leads (Turns limit) ops t b.contents) :
    ∃ b', History.replay (fun op => op.revert (replayTarget mem)) ops.reverse b = (.ok (), b') ∧
      b.Becomes b' t := by
  rw [replay_revert_eq]
  exact replay_apply mem hb hw hlimit hops.flip

theorem replay_apply_readOnly (mem : Memory) (hb : b.WellFormed) (hro : b.readOnly = true)
    {ops : List Operation} {op : Operation} (hfirst : ops.head? = some op)
    (hops : Leads (Turns limit) ops b.contents t') :
    History.replay (fun op => op.apply (replayTarget mem)) ops b =
      (.error (.invalidState op.id BufferError.readOnly.message), b) := by
  cases ops with
  | nil => cases hfirst
  | cons first rest =>
    obtain ⟨mid, hop, -⟩ := hops
    cases hfirst
    simp only [History.replay, apply_of_readOnly mem hb hro hop.splices]

theorem replay_revert_readOnly (mem : Memory) (hb : b.WellFormed) (hro : b.readOnly = true)
    {ops : List Operation} {op : Operation} (hlast : ops.getLast? = some op)
    (hops : Leads (Turns limit) ops t b.contents) :
    History.replay (fun op => op.revert (replayTarget mem)) ops.reverse b =
      (.error (.invalidState op.id BufferError.readOnly.message), b) := by
  have hfirst : (ops.reverse.map Operation.flip).head? = some op.flip := by
    rw [List.head?_map, List.head?_reverse, hlast]
    rfl
  rw [replay_revert_eq, replay_apply_readOnly mem hb hro hfirst hops.flip]
  rfl

end GapBuffer

end TextStore
