import TextStore.History.Commit

/-!
# The groups of a history

A committed sequence owns a range of its history's one list of operations. Reading every sequence
with its operations gives the history as a list of groups, in which no range occurs any more.

* `Tiled` : the ranges of some sequences follow each other without a gap;
* `History.WellFormed` : the ranges tile the list of operations, and boundary, byte count and phase
  agree with it;
* `History.groups` : the history as a list of groups;
* `Group.textLength` : the length of the texts that some groups record, which is what a history counts
  as the bytes it holds (`heldBytes_eq`);
* `dropRedoable_spec`, `append_spec`, `evictOldest_spec` : what the three parts of a commit do
  to the groups. Eviction trims them at the front (`trim`).
-/

namespace TextStore

/-- A group of operations that are undone and redone as one. -/
structure Group where
  id : Nat
  operations : List Operation
  deriving DecidableEq, Repr

/-! ## The text that is recorded -/

/-- The length of the texts that an edit put in and took out. -/
def Edit.textLength : Edit → Nat
  | insert text => text.length
  | delete text => text.length
  | replace deleted inserted => deleted.length + inserted.length

/-- The length of all texts that operations put in and took out. -/
def Operation.textLength : List Operation → Nat
  | [] => 0
  | op :: rest => op.edit.textLength + textLength rest

def Group.textLength (gs : List Group) : Nat := Operation.textLength (gs.flatMap operations)

namespace Operation

theorem textLength_append (l₁ l₂ : List Operation) :
    textLength (l₁ ++ l₂) = textLength l₁ + textLength l₂ := by
  induction l₁ with
  | nil => exact (Nat.zero_add _).symm
  | cons op rest ih => rw [List.cons_append, textLength, textLength, ih, Nat.add_assoc]

/-- An operation holds the texts of its edit. -/
theorem heldBytes_eq_textLength (op : Operation) : op.heldBytes = op.edit.textLength := by
  rw [heldBytes]
  cases op.edit with
  | insert text => rfl
  | delete text => exact Nat.zero_add _
  | replace deleted inserted => exact Nat.add_comm ..

theorem totalBytes_eq_textLength (ops : List Operation) : totalBytes ops = textLength ops := by
  induction ops with
  | nil => rfl
  | cons op rest ih => rw [totalBytes, textLength, ih, heldBytes_eq_textLength]

theorem totalBytes_append (l₁ l₂ : List Operation) :
    totalBytes (l₁ ++ l₂) = totalBytes l₁ + totalBytes l₂ := by
  simp only [totalBytes_eq_textLength, textLength_append]

end Operation

theorem Group.textLength_cons (g : Group) (rest : List Group) :
    textLength (g :: rest) = Operation.totalBytes g.operations + textLength rest := by
  rw [textLength, List.flatMap_cons, Operation.textLength_append, Operation.totalBytes_eq_textLength,
    textLength]

/-! ## Ranges that follow each other -/

/-- The sequences own the ranges from `start` to `stop`, none of them empty, in order. -/
def Tiled : Nat → List Sequence → Nat → Prop
  | start, [], stop => start = stop
  | start, seq :: rest, stop => seq.start = start ∧ start < seq.stop ∧ Tiled seq.stop rest stop

namespace Tiled

variable {start stop : Nat} {l l₁ l₂ : List Sequence} {seq : Sequence}

theorem le (h : Tiled start l stop) : start ≤ stop := by
  induction l generalizing start with
  | nil => exact Nat.le_of_eq h
  | cons seq rest ih =>
    obtain ⟨-, hlt, hrest⟩ := h
    have := ih hrest
    omega

theorem append {mid : Nat} (h₁ : Tiled start l₁ mid) (h₂ : Tiled mid l₂ stop) :
    Tiled start (l₁ ++ l₂) stop := by
  induction l₁ generalizing start with
  | nil =>
    obtain rfl : start = mid := h₁
    exact h₂
  | cons seq rest ih => exact ⟨h₁.1, h₁.2.1, ih h₁.2.2⟩

theorem of_mem (h : Tiled start l stop) (hmem : seq ∈ l) :
    start ≤ seq.start ∧ seq.start < seq.stop ∧ seq.stop ≤ stop := by
  induction l generalizing start with
  | nil => cases hmem
  | cons first rest ih =>
    obtain ⟨hstart, hlt, hrest⟩ := h
    rcases List.mem_cons.1 hmem with rfl | hmem
    · exact ⟨Nat.le_of_eq hstart.symm, by omega, hrest.le⟩
    · have := ih hrest hmem
      omega

/-- The tiling is cut before one of its sequences. -/
theorem split (h : Tiled start l stop) {i : Nat} (hi : l[i]? = some seq) :
    Tiled start (l.take i) seq.start ∧ Tiled seq.start (l.drop i) stop := by
  induction l generalizing start i with
  | nil => cases hi
  | cons first rest ih =>
    obtain ⟨hstart, hlt, hrest⟩ := h
    cases i with
    | zero =>
      obtain rfl : first = seq := by simpa using hi
      exact ⟨hstart.symm, rfl, hstart ▸ hlt, hrest⟩
    | succ i =>
      obtain ⟨hleft, hright⟩ := ih hrest (by simpa using hi)
      exact ⟨⟨hstart, hlt, hleft⟩, hright⟩

/-- The tiling is cut after one of its sequences. -/
theorem split_after (h : Tiled start l stop) {i : Nat} (hi : l[i]? = some seq) :
    Tiled start (l.take (i + 1)) seq.stop ∧ Tiled seq.stop (l.drop (i + 1)) stop := by
  induction l generalizing start i with
  | nil => cases hi
  | cons first rest ih =>
    obtain ⟨hstart, hlt, hrest⟩ := h
    cases i with
    | zero =>
      obtain rfl : first = seq := by simpa using hi
      exact ⟨⟨hstart, hlt, rfl⟩, hrest⟩
    | succ i =>
      obtain ⟨hleft, hright⟩ := ih hrest (by simpa using hi)
      exact ⟨⟨hstart, hlt, hleft⟩, hright⟩

theorem rebase {count : Nat} (h : Tiled start l stop) (hle : count ≤ start) :
    Tiled (start - count) (l.map (Sequence.rebase count)) (stop - count) := by
  induction l generalizing start with
  | nil =>
    obtain rfl : start = stop := h
    rfl
  | cons seq rest ih =>
    obtain ⟨hstart, hlt, hrest⟩ := h
    refine ⟨?_, ?_, ih hrest (by omega)⟩
    · simp only [Sequence.rebase, hstart]
    · simp only [Sequence.rebase]
      omega

end Tiled

/-! ## Groups -/

namespace History

variable {h : History}

def groupOf (h : History) (seq : Sequence) : Group :=
  { id := seq.id, operations := h.operationsOf seq }

/-- The committed sequences with their operations, oldest first. -/
def groups (h : History) : List Group := h.sequences.map h.groupOf

/-- The list of operations, the boundary, the byte count and the phase fit the sequences. -/
structure WellFormed (h : History) : Prop where
  applied_le : h.applied ≤ h.sequences.length
  tiled : Tiled 0 h.sequences h.operations.length
  heldBytes : h.heldBytes = Operation.totalBytes h.operations
  phase : h.phase = if h.opened.isSome then .recording else .idle

theorem wellFormed_new (settings : HistorySettings) : WellFormed { settings } :=
  ⟨Nat.le_refl _, rfl, rfl, rfl⟩

theorem wellFormed_clear (h : History) : h.clear.WellFormed := ⟨Nat.le_refl _, rfl, rfl, rfl⟩

theorem length_groups (h : History) : h.groups.length = h.sequences.length := List.length_map _

theorem groups_getElem? (h : History) (i : Nat) :
    h.groups[i]? = h.sequences[i]?.map h.groupOf := List.getElem?_map

theorem exists_sequence {i : Nat} {g : Group} (hg : h.groups[i]? = some g) :
    ∃ seq, h.sequences[i]? = some seq ∧ h.operationsOf seq = g.operations := by
  rw [groups_getElem?] at hg
  obtain ⟨seq, hseq, rfl⟩ := Option.map_eq_some_iff.1 hg
  exact ⟨seq, hseq, rfl⟩

theorem groupOf_take {n : Nat} {seq : Sequence} (h : History) (hstop : seq.stop ≤ n) :
    { h with operations := h.operations.take n }.groupOf seq = h.groupOf seq := by
  simp only [groupOf, operationsOf, List.drop_take, List.take_take]
  rw [Nat.min_eq_left (by omega)]

theorem groupOf_append {seq : Sequence} (h : History) (more : List Operation)
    (hle : seq.start ≤ seq.stop) (hstop : seq.stop ≤ h.operations.length) :
    { h with operations := h.operations ++ more }.groupOf seq = h.groupOf seq := by
  simp only [groupOf, operationsOf]
  rw [List.drop_append_of_le_length (by omega),
    List.take_append_of_le_length (by rw [List.length_drop]; omega)]

theorem groupOf_rebase {n : Nat} {seq : Sequence} (h : History) (hstart : n ≤ seq.start) :
    { h with operations := h.operations.drop n }.groupOf (seq.rebase n) = h.groupOf seq := by
  simp only [groupOf, operationsOf, Sequence.rebase, List.drop_drop]
  rw [Nat.add_sub_cancel' hstart, Nat.sub_sub_sub_cancel_right hstart]

/-- Tiled sequences have the operations of the range that they tile. -/
theorem operations_groupOf {start stop : Nat} {l : List Sequence} (ht : Tiled start l stop) :
    (l.map h.groupOf).flatMap Group.operations = (h.operations.drop start).take (stop - start) := by
  induction l generalizing start with
  | nil =>
    obtain rfl : start = stop := ht
    simp
  | cons seq rest ih =>
    obtain ⟨hstart, hlt, hrest⟩ := ht
    have hle := hrest.le
    rw [List.map_cons, List.flatMap_cons, ih hrest]
    simp only [groupOf, operationsOf, hstart]
    rw [show stop - start = seq.stop - start + (stop - seq.stop) by omega, List.take_add,
      List.drop_drop, Nat.add_sub_cancel' (Nat.le_of_lt hlt)]

theorem heldBytes_eq (hw : h.WellFormed) : h.heldBytes = Group.textLength h.groups := by
  rw [groups, Group.textLength, operations_groupOf hw.tiled, hw.heldBytes,
    Operation.totalBytes_eq_textLength, List.drop_zero, Nat.sub_zero, List.take_length]

end History

/-! ## Trimming -/

/-- Drops groups from the front while more than one is left and a limit is exceeded. -/
def trim (limits : HistorySettings) : List Group → List Group
  | [] => []
  | g :: rest =>
    if 1 < (g :: rest).length ∧ (limits.maxSequences < (g :: rest).length ∨
        limits.maxMemory < Group.textLength (g :: rest)) then trim limits rest
    else g :: rest

/-- Some of the oldest groups go, and never all. -/
theorem trim_eq_drop (limits : HistorySettings) (gs : List Group) :
    ∃ n, trim limits gs = gs.drop n ∧ (gs ≠ [] → n < gs.length) := by
  induction gs with
  | nil => exact ⟨0, rfl, fun hne => absurd rfl hne⟩
  | cons g rest ih =>
    obtain ⟨n, heq, hlt⟩ := ih
    unfold trim
    split
    · next hover =>
      have hne : rest ≠ [] := by
        rintro rfl
        exact absurd hover.1 (Nat.lt_irrefl 1)
      exact ⟨n + 1, heq, fun _ => Nat.succ_lt_succ (hlt hne)⟩
    · exact ⟨0, rfl, fun _ => Nat.zero_lt_succ _⟩

namespace History

variable {h : History}

/-- Counting evictions is trimming: as many sequences go as the groups are shortened by, and the
bytes left are those of the groups left. -/
theorem evictions_eq (h : History) (l : List Sequence) :
    trim h.settings (l.map h.groupOf) =
      (l.drop (h.evictions l l.length l.length (Group.textLength (l.map h.groupOf))).1).map
        h.groupOf ∧
    (h.evictions l l.length l.length (Group.textLength (l.map h.groupOf))).2 =
      Group.textLength (trim h.settings (l.map h.groupOf)) ∧
    (l ≠ [] → (h.evictions l l.length l.length (Group.textLength (l.map h.groupOf))).1 <
      l.length) := by
  induction l with
  | nil => exact ⟨rfl, rfl, fun hne => absurd rfl hne⟩
  | cons seq rest ih =>
    obtain ⟨hdrop, hbytes, hlt⟩ := ih
    have hrest : Group.textLength ((seq :: rest).map h.groupOf) -
        Operation.totalBytes (h.operationsOf seq) = Group.textLength (rest.map h.groupOf) := by
      rw [List.map_cons, Group.textLength_cons]
      exact Nat.add_sub_cancel_left ..
    have hlen : (h.groupOf seq :: rest.map h.groupOf).length = (seq :: rest).length := by
      rw [List.length_cons, List.length_map, List.length_cons]
    rw [evictions, hrest, List.map_cons, trim, hlen]
    split
    · next hover =>
      have hne : rest ≠ [] := by
        rintro rfl
        exact absurd hover.1 (Nat.lt_irrefl 1)
      exact ⟨hdrop, hbytes, fun _ => Nat.succ_lt_succ (hlt hne)⟩
    · exact ⟨rfl, rfl, fun _ => Nat.zero_lt_succ _⟩

/-! ## Committing -/

/-- Throwing away what can be redone leaves the undoable groups. -/
theorem dropRedoable_spec (hw : h.WellFormed) :
    h.dropRedoable.WellFormed ∧ h.dropRedoable.groups = h.groups.take h.applied ∧
      h.dropRedoable.applied = h.dropRedoable.sequences.length := by
  unfold dropRedoable nextSequence?
  cases hnext : h.sequences[h.applied]? with
  | none =>
    have hall : h.sequences.length ≤ h.applied := List.getElem?_eq_none_iff.1 hnext
    refine ⟨hw, ?_, Nat.le_antisymm hw.applied_le hall⟩
    exact (List.take_of_length_le (by rw [length_groups]; exact hall)).symm
  | some seq =>
    obtain ⟨hkept, hgone⟩ := hw.tiled.split hnext
    have hstart : seq.start ≤ h.operations.length := hgone.le
    have hlen : (h.sequences.take h.applied).length = h.applied := by
      rw [List.length_take]
      exact Nat.min_eq_left hw.applied_le
    refine ⟨⟨Nat.le_of_eq hlen.symm, ?_, ?_, hw.phase⟩, ?_, hlen.symm⟩
    · simp only [List.length_take, Nat.min_eq_left hstart]
      exact hkept
    · have hsplit := Operation.totalBytes_append (h.operations.take seq.start)
        (h.operations.drop seq.start)
      rw [List.take_append_drop] at hsplit
      simp only [hw.heldBytes, hsplit]
      omega
    · rw [groups, groups, ← List.map_take]
      apply List.map_congr_left
      intro old hold
      exact groupOf_take h (hkept.of_mem hold).2.2

/-- A sequence with operations is put after all groups. -/
theorem append_spec (hw : h.WellFormed) (s : OpenSequence) (now : Nat) (hs : s.operations ≠ []) :
    (h.append s now).WellFormed ∧
      (h.append s now).groups = h.groups ++ [{ id := s.id, operations := s.operations }] ∧
      (h.append s now).applied = (h.append s now).sequences.length := by
  have hpos : 0 < s.operations.length := List.length_pos_iff.2 hs
  refine ⟨⟨Nat.le_refl _, ?_, ?_, hw.phase⟩, ?_, rfl⟩
  · refine hw.tiled.append ⟨rfl, ?_, rfl⟩
    simp only [List.length_append]
    omega
  · simp only [append, Operation.totalBytes_append, hw.heldBytes]
  · simp only [groups, append, List.map_append, List.map_cons, List.map_nil]
    congr 1
    · apply List.map_congr_left
      intro old hold
      obtain ⟨-, hlt, hstop⟩ := hw.tiled.of_mem hold
      exact groupOf_append h s.operations (Nat.le_of_lt hlt) hstop
    · simp only [groupOf, operationsOf, List.length_append, List.drop_left, Nat.add_sub_cancel_left,
        List.take_length]

/-- Evicting the oldest sequences trims the groups. -/
theorem evictOldest_spec (hw : h.WellFormed) (hall : h.applied = h.sequences.length) :
    h.evictOldest.WellFormed ∧ h.evictOldest.groups = trim h.settings h.groups ∧
      h.evictOldest.applied = h.evictOldest.sequences.length := by
  obtain ⟨hdrop, hbytes, hlt⟩ := h.evictions_eq h.sequences
  rw [← groups, ← heldBytes_eq hw] at hdrop hbytes hlt
  unfold evictOldest
  rw [hall]
  split
  · next left heq =>
    rw [heq] at hdrop
    exact ⟨hw, hdrop.symm, hall⟩
  · next evicted left heq =>
    rw [heq] at hdrop hbytes hlt
    simp only at hdrop hbytes hlt
    have hin : evicted + 1 < h.sequences.length := by
      apply hlt
      intro hnil
      rw [hnil] at heq
      cases heq
    obtain ⟨seq, hseq⟩ : ∃ seq, h.sequences[evicted]? = some seq :=
      ⟨_, List.getElem?_eq_getElem (by omega)⟩
    obtain ⟨-, hkept⟩ := hw.tiled.split_after hseq
    simp only [hseq]
    have hrebased := hkept.rebase (Nat.le_refl seq.stop)
    rw [Nat.sub_self] at hrebased
    have hlen : h.sequences.length - (evicted + 1) =
        ((h.sequences.drop (evicted + 1)).map (Sequence.rebase seq.stop)).length := by
      rw [List.length_map, List.length_drop]
    refine ⟨⟨Nat.le_of_eq hlen, ?_, ?_, hw.phase⟩, ?_, hlen⟩
    · simp only [List.length_drop]
      exact hrebased
    · simp only [hbytes, hdrop, Group.textLength, operations_groupOf hkept,
        Operation.totalBytes_eq_textLength]
      rw [List.take_of_length_le (Nat.le_of_eq List.length_drop)]
    · rw [hdrop, groups, List.map_map]
      apply List.map_congr_left
      intro old hold
      exact groupOf_rebase h (hkept.of_mem hold).1

end History

end TextStore
