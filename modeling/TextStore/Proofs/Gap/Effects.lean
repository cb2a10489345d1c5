import TextStore.Proofs.Gap.Unchanged

/-!
# What an operation can do to a gap buffer

The ten operations come down to few acts on the buffer: growing the region, moving the gap, filling
it, absorbing into it and setting a flag. `Effect` says which of them an answer goes with, so that a
property of the operations is proved by going through its cases and not through their code.

* `GapOp.inserted?`, `GapOp.deleted?`, `GapOp.marks?` : the bytes that an operation is to put in, the
  range that it is to take out, and the value that it is to give to the modified flag;
* `Room b needed b₁` : `b₁` is `b` with a region of `needed` bytes, grown if there was a smaller one;
* `Effect b op answer b'` : `op` may answer `answer` and make `b'` of `b`. `effect_perform` : every
  operation on a well-formed buffer has its effect.
-/

namespace TextStore

namespace GapOp

/-- The position and the bytes of an insertion. -/
def inserted? : GapOp → Option (Nat × List UInt8)
  | insert pos bytes => some (pos, bytes)
  | insertByte pos byte => some (pos, [byte])
  | _ => none

/-- The range that a deletion takes out of the text of `b`. -/
def deleted? (b : GapBuffer) : GapOp → Option (Nat × Nat)
  | delete start stop => some (start, stop)
  | deleteByte pos => some (pos, pos + 1)
  | clear => some (0, b.length)
  | _ => none

/-- What the modified flag is set to, by an operation that only sets it. -/
def marks? : GapOp → Option Bool
  | setModified on => some on
  | clearModified => some false
  | _ => none

theorem perform_of_inserted? {op : GapOp} {pos : Nat} {bytes : List UInt8} (mem : Memory)
    (b : GapBuffer) (h : op.inserted? = some (pos, bytes)) :
    op.perform mem b = b.insert mem pos bytes := by
  cases op <;> cases h <;> rfl

theorem deleted?_of_inserted? {op : GapOp} {edit : Nat × List UInt8} (b : GapBuffer)
    (h : op.inserted? = some edit) : op.deleted? b = none := by
  cases op <;> cases h <;> rfl

theorem inserted?_of_deleted? {op : GapOp} {b : GapBuffer} {range : Nat × Nat}
    (h : op.deleted? b = some range) : op.inserted? = none := by
  cases op <;> cases h <;> rfl

theorem edits_of_marks? {op : GapOp} {on : Bool} (b : GapBuffer) (h : op.marks? = some on) :
    op.inserted? = none ∧ op.deleted? b = none := by
  cases op <;> cases h <;> exact ⟨rfl, rfl⟩

end GapOp

namespace GapBuffer

variable {b b₁ : GapBuffer} {op : GapOp} {needed pos start stop : Nat} {bytes : List UInt8}

/-! ## Room -/

/-- What a region of `old` bytes grows to when `needed` bytes are asked for. -/
def grownSize (old needed : Nat) : Nat := max (old * 3 / 2) (needed + minGap)

theorem add_minGap_le_grownSize (old needed : Nat) : needed + minGap ≤ grownSize old needed :=
  Nat.le_max_right _ _

theorem lt_grownSize {old : Nat} (hlt : old < needed) : old < grownSize old needed := by
  have := add_minGap_le_grownSize old needed
  omega

/-- A region of `needed` bytes was there, or the region was replaced by a larger one. -/
inductive Room (b : GapBuffer) (needed : Nat) : GapBuffer → Prop
  | enough (h : needed ≤ b.capacity) : Room b needed b
  | grown (h : b.capacity < needed) : Room b needed (b.grow (grownSize b.capacity needed))

namespace Room

theorem becomes (h : b.Room needed b₁) (hb : b.WellFormed) : b.Becomes b₁ b.contents := by
  cases h with
  | enough _ => exact .refl hb
  | grown hlt =>
    have hsize := Nat.le_of_lt (lt_grownSize hlt)
    have hruns := grow_runs hb hsize
    have hlen := (exists_runs hb).length
    have hcap := length_le_capacity b
    refine hruns.becomes rfl ?_
    rw [hruns.capacity]
    omega

theorem length_eq (h : b.Room needed b₁) (hb : b.WellFormed) : b₁.length = b.length := by
  have hb₁ := h.becomes hb
  rw [← length_contents hb₁.wellFormed, hb₁.contents, length_contents hb]

theorem gapStart_eq (h : b.Room needed b₁) : b₁.gapStart = b.gapStart := by
  cases h <;> rfl

theorem modified_eq (h : b.Room needed b₁) : b₁.modified = b.modified := by
  cases h <;> rfl

end Room

theorem capacity_grow (hb : b.WellFormed) {size : Nat} (hsize : b.capacity ≤ size) :
    (b.grow size).capacity = size := by
  have hlen := (exists_runs hb).length
  have hcap := length_le_capacity b
  rw [(grow_runs hb hsize).capacity]
  omega

theorem Room.capacity_eq (h : b.Room needed b₁) (hb : b.WellFormed) :
    b₁.capacity = if b.capacity < needed then grownSize b.capacity needed else b.capacity := by
  cases h with
  | enough hle => rw [if_neg (Nat.not_lt.2 hle)]
  | grown hlt => rw [if_pos hlt, capacity_grow hb (Nat.le_of_lt (lt_grownSize hlt))]

theorem Room.needed_le (h : b.Room needed b₁) (hb : b.WellFormed) : needed ≤ b₁.capacity := by
  have hsize := add_minGap_le_grownSize b.capacity needed
  rw [h.capacity_eq hb]
  split <;> omega

/-- There is room in the gap for the bytes that room was made for behind the text. -/
theorem Room.le_gapLength {count : Nat} (h : b.Room (b.length + count) b₁) (hb : b.WellFormed) :
    count ≤ b₁.gapLength := by
  have hlen := h.length_eq hb
  have hgap := length_add_gapLength (h.becomes hb).wellFormed
  have hneeded := h.needed_le hb
  omega

theorem eq_grownSize {old size : Nat} (h : grownCapacity? old needed = some size) :
    size = grownSize old needed := by
  unfold grownCapacity? at h
  split at h
  · cases h
    rfl
  · cases h

/-- Reserving makes room, or memory is refused and nothing happens. -/
theorem reserve_room (mem : Memory) (b : GapBuffer) (needed : Nat) :
    (∃ n, b.reserve mem needed = (.error (.allocationFailed n), b)) ∨
      ∃ b₁, b.reserve mem needed = (.ok (), b₁) ∧ b.Room needed b₁ := by
  unfold reserve
  split
  · next hle => exact .inr ⟨b, rfl, .enough hle⟩
  next hgt =>
  cases hgrown : grownCapacity? b.capacity needed with
  | none => exact .inl ⟨needed, rfl⟩
  | some size =>
    obtain rfl := eq_grownSize hgrown
    simp only
    split
    · exact .inr ⟨_, rfl, .grown (Nat.not_le.1 hgt)⟩
    · exact .inl ⟨_, rfl⟩

/-- Making room in the gap is making room in the region for the text and the new bytes. -/
theorem makeRoom_room (mem : Memory) (hb : b.WellFormed) (count : Nat) :
    (∃ n, b.makeRoom mem count = (.error (.allocationFailed n), b)) ∨
      ∃ b₁, b.makeRoom mem count = (.ok (), b₁) ∧ b.Room (b.length + count) b₁ := by
  have hroom := length_add_gapLength hb
  unfold makeRoom
  split
  · next hle => exact .inr ⟨b, rfl, .enough (by omega)⟩
  split
  · exact .inl ⟨count, rfl⟩
  · exact reserve_room mem b _

/-! ## Effects -/

/-- What an operation can answer and make of `b`. -/
inductive Effect (b : GapBuffer) : GapOp → Except BufferError Unit → GapBuffer → Prop
  /-- A refused operation does nothing. -/
  | refused (op : GapOp) (e : BufferError) : Effect b op (.error e) b
  /-- There are no bytes to put in or to take out. -/
  | nothing (op : GapOp) (h : (∃ pos, op.inserted? = some (pos, [])) ∨
      ∃ pos, op.deleted? b = some (pos, pos)) : Effect b op (.ok ()) b
  | inserted (op : GapOp) {pos : Nat} {bytes : List UInt8} {b₁ : GapBuffer}
      (h : op.inserted? = some (pos, bytes)) (hne : bytes ≠ []) (hpos : pos ≤ b.length)
      (hw : b.readOnly = false) (hroom : b.Room (b.length + bytes.length) b₁) :
      Effect b op (.ok ()) ((b₁.placeGap pos).fill bytes)
  | deleted (op : GapOp) {start stop : Nat} (h : op.deleted? b = some (start, stop))
      (hlt : start < stop) (hstop : stop ≤ b.length) (hw : b.readOnly = false) :
      Effect b op (.ok ()) ((b.placeGap start).absorb (stop - start))
  | moved {pos : Nat} (hpos : pos ≤ b.length) : Effect b (.moveGap pos) (.ok ()) (b.placeGap pos)
  | reserved {needed : Nat} {b₁ : GapBuffer} (hroom : b.Room needed b₁) :
      Effect b (.reserve needed) (.ok ()) b₁
  | locked (on : Bool) : Effect b (.setReadOnly on) (.ok ()) (b.setReadOnly on)
  | marked (op : GapOp) {on : Bool} (h : op.marks? = some on) :
      Effect b op (.ok ()) (b.setModified on)

theorem effect_insert (mem : Memory) (hb : b.WellFormed) (hop : op.inserted? = some (pos, bytes)) :
    b.Effect op (b.insert mem pos bytes).1 (b.insert mem pos bytes).2 := by
  unfold insert
  split
  · exact .refused op _
  next hpos =>
  split
  · exact .refused op _
  next hro =>
  split
  · next hempty =>
    rw [List.isEmpty_iff.1 hempty] at hop
    exact .nothing op (.inl ⟨pos, hop⟩)
  next hempty =>
  have hne : bytes ≠ [] := fun hnil => hempty (List.isEmpty_iff.2 hnil)
  rcases makeRoom_room mem hb bytes.length with ⟨n, heq⟩ | ⟨b₁, heq, hroom⟩
  · rw [heq]
    exact .refused op _
  · rw [heq]
    exact .inserted op hop hne (Nat.not_lt.1 hpos) (by simpa using hro) hroom

theorem effect_delete (hop : op.deleted? b = some (start, stop)) :
    b.Effect op (b.delete start stop).1 (b.delete start stop).2 := by
  unfold delete
  split
  · exact .refused op _
  next hin =>
  split
  · exact .refused op _
  next hro =>
  split
  · next heq =>
    subst heq
    exact .nothing op (.inr ⟨start, hop⟩)
  · exact .deleted op hop (by omega) (by omega) (by simpa using hro)

/-- Every operation has its effect. -/
theorem effect_perform (mem : Memory) (hb : b.WellFormed) (op : GapOp) :
    b.Effect op (op.perform mem b).1 (op.perform mem b).2 := by
  cases op with
  | insert pos bytes => exact effect_insert mem hb rfl
  | insertByte pos byte => exact effect_insert mem hb rfl
  | delete start stop => exact effect_delete rfl
  | deleteByte pos =>
    rw [GapOp.perform, deleteByte]
    split
    · exact .refused _ _
    · exact effect_delete rfl
  | clear => exact effect_delete rfl
  | moveGap pos =>
    rw [GapOp.perform, moveGap]
    split
    · exact .refused _ _
    · next hpos => exact .moved (Nat.not_lt.1 hpos)
  | reserve needed =>
    rw [GapOp.perform]
    rcases reserve_room mem b needed with ⟨n, heq⟩ | ⟨b₁, heq, hroom⟩
    · rw [heq]
      exact .refused _ _
    · rw [heq]
      exact .reserved hroom
  | setReadOnly on => exact .locked on
  | setModified on => exact .marked _ rfl
  | clearModified => exact .marked _ rfl

end GapBuffer

end TextStore
