import TextStore.Proofs.Gap.Refinement

/-!
# Operations that change nothing

* `GapOp.Idle b op` : `op` asks for nothing that `b` is not already: no byte to insert or delete, the
  gap where it stands, a capacity that is there, a flag as it is set;
* `perform_eq_self_iff` : an operation leaves the whole buffer as it was, region, gap, flags and
  counters, exactly when it fails or is idle. An accepted operation that is not idle is counted
  (`edits_insert`, `edits_delete`, `growths_reserve`) or moves the gap;
* `effective` : the operations of a run that change something. The run ends where they alone lead
  (`run_effective`).
-/

namespace TextStore

namespace GapOp

/-- There is nothing to do for the operation. -/
def Idle (b : GapBuffer) : GapOp → Prop
  | insert _ bytes => bytes = []
  | delete start stop => start = stop
  | clear => b.length = 0
  | moveGap pos => pos = b.gapStart
  | reserve needed => needed ≤ b.capacity
  | setReadOnly on => b.readOnly = on
  | setModified on => b.modified = on
  | clearModified => b.modified = false
  | insertByte _ _ | deleteByte _ => False

instance (b : GapBuffer) : (op : GapOp) → Decidable (op.Idle b)
  | insert _ bytes => inferInstanceAs (Decidable (bytes = []))
  | delete start stop => inferInstanceAs (Decidable (start = stop))
  | clear => inferInstanceAs (Decidable (b.length = 0))
  | moveGap pos => inferInstanceAs (Decidable (pos = b.gapStart))
  | reserve needed => inferInstanceAs (Decidable (needed ≤ b.capacity))
  | setReadOnly on => inferInstanceAs (Decidable (b.readOnly = on))
  | setModified on => inferInstanceAs (Decidable (b.modified = on))
  | clearModified => inferInstanceAs (Decidable (b.modified = false))
  | insertByte _ _ | deleteByte _ => inferInstanceAs (Decidable False)

end GapOp

namespace GapBuffer

variable {b : GapBuffer}

/-! ## Accepted operations are counted -/

/-- The accepted inserts and deletions of at least one byte. -/
def edits (b : GapBuffer) : Nat := b.counters.inserts + b.counters.deletes

theorem edits_placeGap (b : GapBuffer) (pos : Nat) : (b.placeGap pos).edits = b.edits := by
  unfold placeGap
  split
  · rfl
  · split <;> rfl

/-- Room is made by growing or not at all. -/
theorem makeRoom_result (mem : Memory) (b : GapBuffer) (count : Nat) :
    (∃ e, b.makeRoom mem count = (.error e, b)) ∨ b.makeRoom mem count = (.ok (), b) ∨
      ∃ size, b.makeRoom mem count = (.ok (), b.grow size) := by
  unfold makeRoom
  split
  · exact .inr (.inl rfl)
  split
  · exact .inl ⟨_, rfl⟩
  rcases reserve_cases mem b (b.length + count) with ⟨-, heq⟩ | ⟨-, -, size, -, heq⟩ |
    ⟨-, -, n, heq⟩
  · exact .inr (.inl heq)
  · exact .inr (.inr ⟨size, heq⟩)
  · exact .inl ⟨_, heq⟩

/-- An insert fails and does nothing, has nothing to insert, or is one more edit. -/
theorem edits_insert (mem : Memory) (b : GapBuffer) (pos : Nat) (bytes : List UInt8) :
    (∃ e, b.insert mem pos bytes = (.error e, b)) ∨
      (bytes = [] ∧ b.insert mem pos bytes = (.ok (), b)) ∨
      (bytes ≠ [] ∧ ∃ b', b.insert mem pos bytes = (.ok (), b') ∧ b'.edits = b.edits + 1) := by
  unfold insert
  split
  · exact .inl ⟨_, rfl⟩
  split
  · exact .inl ⟨_, rfl⟩
  split
  · next hempty => exact .inr (.inl ⟨List.isEmpty_iff.1 hempty, rfl⟩)
  next hempty =>
  have hne : bytes ≠ [] := fun hnil => hempty (List.isEmpty_iff.2 hnil)
  -- filling counts one insert, and neither growing nor moving the gap counts any edit
  have hfill (b' : GapBuffer) : ((b'.placeGap pos).fill bytes).edits = b'.edits + 1 := by
    rw [← edits_placeGap b' pos, edits, edits]
    exact Nat.succ_add _ _
  rcases makeRoom_result mem b bytes.length with ⟨e, heq⟩ | heq | ⟨size, heq⟩
  · rw [heq]
    exact .inl ⟨e, rfl⟩
  · rw [heq]
    exact .inr (.inr ⟨hne, _, rfl, hfill b⟩)
  · rw [heq]
    exact .inr (.inr ⟨hne, _, rfl, hfill (b.grow size)⟩)

/-- A deletion fails and does nothing, has nothing to delete, or is one more edit. -/
theorem edits_delete (b : GapBuffer) (start stop : Nat) :
    (∃ e, b.delete start stop = (.error e, b)) ∨
      (start = stop ∧ b.delete start stop = (.ok (), b)) ∨
      (start ≠ stop ∧ ∃ b', b.delete start stop = (.ok (), b') ∧ b'.edits = b.edits + 1) := by
  unfold delete
  split
  · exact .inl ⟨_, rfl⟩
  split
  · exact .inl ⟨_, rfl⟩
  split
  · next heq => exact .inr (.inl ⟨heq, rfl⟩)
  · next hne =>
    refine .inr (.inr ⟨hne, _, rfl, ?_⟩)
    rw [← edits_placeGap b start, edits, edits]
    rfl

theorem growths_reserve (mem : Memory) (b : GapBuffer) (needed : Nat) :
    (∃ e, b.reserve mem needed = (.error e, b)) ∨
      (needed ≤ b.capacity ∧ b.reserve mem needed = (.ok (), b)) ∨
      (b.capacity < needed ∧ ∃ b', b.reserve mem needed = (.ok (), b') ∧
        b'.counters.growths = b.counters.growths + 1) := by
  rcases reserve_cases mem b needed with ⟨hle, heq⟩ | ⟨hlt, -, size, -, heq⟩ | ⟨-, -, n, heq⟩
  · exact .inr (.inl ⟨hle, heq⟩)
  · exact .inr (.inr ⟨hlt, _, heq, rfl⟩)
  · exact .inl ⟨_, heq⟩

/-! ## One operation -/

/-- What the three kinds of answers say about the buffer afterwards. -/
theorem eq_self_iff {result : Except BufferError Unit × GapBuffer} {idle : Prop}
    (hcases : (∃ e, result = (.error e, b)) ∨ (idle ∧ result = (.ok (), b)) ∨
      (¬ idle ∧ ∃ b', result = (.ok (), b') ∧ b' ≠ b)) :
    result.2 = b ↔ (∃ e, result.1 = .error e) ∨ idle := by
  rcases hcases with ⟨e, rfl⟩ | ⟨hidle, rfl⟩ | ⟨hbusy, b', rfl, hne⟩
  · exact ⟨fun _ => .inl ⟨e, rfl⟩, fun _ => rfl⟩
  · exact ⟨fun _ => .inr hidle, fun _ => rfl⟩
  · refine ⟨fun heq => absurd heq hne, ?_⟩
    rintro (⟨e, he⟩ | hidle)
    · cases he
    · exact absurd hidle hbusy

theorem ne_of_edits {b' : GapBuffer} (h : b'.edits = b.edits + 1) : b' ≠ b := by
  rintro rfl
  omega

theorem insert_eq_self_iff (mem : Memory) (b : GapBuffer) (pos : Nat) (bytes : List UInt8) :
    (b.insert mem pos bytes).2 = b ↔
      (∃ e, (b.insert mem pos bytes).1 = .error e) ∨ bytes = [] := by
  apply eq_self_iff
  rcases edits_insert mem b pos bytes with herror | hidle | ⟨hne, b', heq, hedits⟩
  · exact .inl herror
  · exact .inr (.inl hidle)
  · exact .inr (.inr ⟨hne, b', heq, ne_of_edits hedits⟩)

theorem delete_eq_self_iff (b : GapBuffer) (start stop : Nat) :
    (b.delete start stop).2 = b ↔ (∃ e, (b.delete start stop).1 = .error e) ∨ start = stop := by
  apply eq_self_iff
  rcases edits_delete b start stop with herror | hidle | ⟨hne, b', heq, hedits⟩
  · exact .inl herror
  · exact .inr (.inl hidle)
  · exact .inr (.inr ⟨hne, b', heq, ne_of_edits hedits⟩)

theorem reserve_eq_self_iff (mem : Memory) (b : GapBuffer) (needed : Nat) :
    (b.reserve mem needed).2 = b ↔
      (∃ e, (b.reserve mem needed).1 = .error e) ∨ needed ≤ b.capacity := by
  apply eq_self_iff
  rcases growths_reserve mem b needed with herror | hidle | ⟨hlt, b', heq, hgrowths⟩
  · exact .inl herror
  · exact .inr (.inl hidle)
  · refine .inr (.inr ⟨Nat.not_le.2 hlt, b', heq, ?_⟩)
    rintro rfl
    omega

theorem gapStart_placeGap (b : GapBuffer) (pos : Nat) : (b.placeGap pos).gapStart = pos := by
  unfold placeGap
  split
  · rfl
  · split
    · show b.gapStart + (pos - b.gapStart) = pos
      omega
    · show b.gapStart = pos
      omega

theorem moveGap_eq_self_iff (b : GapBuffer) (pos : Nat) :
    (b.moveGap pos).2 = b ↔ (∃ e, (b.moveGap pos).1 = .error e) ∨ pos = b.gapStart := by
  have hplaced := gapStart_placeGap b pos
  apply eq_self_iff
  unfold moveGap
  split
  · exact .inl ⟨_, rfl⟩
  by_cases hpos : pos = b.gapStart
  · refine .inr (.inl ⟨hpos, ?_⟩)
    subst hpos
    rw [placeGap, if_neg (Nat.lt_irrefl _), if_neg (Nat.lt_irrefl _)]
  · refine .inr (.inr ⟨hpos, _, rfl, fun hsame => hpos ?_⟩)
    rw [hsame] at hplaced
    exact hplaced.symm

/-- An operation leaves the buffer as it was exactly when it fails or there is nothing to do. -/
theorem perform_eq_self_iff (mem : Memory) (b : GapBuffer) (op : GapOp) :
    (op.perform mem b).2 = b ↔ (∃ e, (op.perform mem b).1 = .error e) ∨ op.Idle b := by
  cases op with
  | insert pos bytes => exact insert_eq_self_iff mem b pos bytes
  | insertByte pos byte =>
    rw [GapOp.perform, insertByte, insert_eq_self_iff, GapOp.Idle]
    simp
  | delete start stop => exact delete_eq_self_iff b start stop
  | deleteByte pos =>
    rw [GapOp.perform, deleteByte, GapOp.Idle]
    split
    · simp
    · rw [delete_eq_self_iff]
      simp
  | clear =>
    rw [GapOp.perform, clear, delete_eq_self_iff, GapOp.Idle, eq_comm (a := 0)]
  | moveGap pos => exact moveGap_eq_self_iff b pos
  | reserve needed => exact reserve_eq_self_iff mem b needed
  | setReadOnly on =>
    obtain ⟨region, gapStart, gapEnd, readOnly⟩ := b
    simp [GapOp.perform, GapOp.Idle, setReadOnly, eq_comm]
  | setModified on =>
    obtain ⟨region, gapStart, gapEnd, readOnly, modified⟩ := b
    simp [GapOp.perform, GapOp.Idle, setModified, eq_comm]
  | clearModified =>
    obtain ⟨region, gapStart, gapEnd, readOnly, modified⟩ := b
    simp [GapOp.perform, GapOp.Idle, clearModified, setModified, eq_comm]

/-! ## Runs of operations -/

/-- The operations of a run that are accepted and have something to do, each where the run reaches
it. -/
def effective (b : GapBuffer) : List (Memory × GapOp) → List (Memory × GapOp)
  | [] => []
  | (mem, op) :: rest =>
    if (op.perform mem b).1.isOk ∧ ¬ op.Idle b then
      (mem, op) :: effective (op.perform mem b).2 rest
    else effective (op.perform mem b).2 rest

theorem run_effective (b : GapBuffer) (steps : List (Memory × GapOp)) :
    (b.run (b.effective steps)).2 = (b.run steps).2 := by
  induction steps generalizing b with
  | nil => rfl
  | cons step rest ih =>
    obtain ⟨mem, op⟩ := step
    rw [effective]
    split
    · exact ih _
    next hdropped =>
    have hself : (op.perform mem b).2 = b := by
      rw [perform_eq_self_iff]
      rcases hanswer : (op.perform mem b).1 with e | ⟨⟩
      · exact .inl ⟨e, rfl⟩
      · rw [hanswer] at hdropped
        exact .inr (Decidable.not_not.1 fun hbusy => hdropped ⟨rfl, hbusy⟩)
    show _ = (run (op.perform mem b).2 rest).2
    rw [hself]
    exact ih b

/-- Whatever state a buffer is in, an operation that fails or has nothing to do leaves all of it as
it was, and no other operation does; so a run ends where its effective operations alone lead. -/
theorem unchanged_iff_failed_or_idle (b : GapBuffer) :
    (∀ (mem : Memory) (op : GapOp), (op.perform mem b).2 = b ↔
      (∃ e, (op.perform mem b).1 = .error e) ∨ op.Idle b) ∧
      ∀ steps : List (Memory × GapOp), (b.run (b.effective steps)).2 = (b.run steps).2 :=
  ⟨fun mem op => perform_eq_self_iff mem b op, b.run_effective⟩

end GapBuffer

end TextStore
