import TextStore.Proofs.Gap.Refinement

/-!
# How large a gap buffer has become

* `Sizes` : the region and the marks that a buffer keeps of the largest text and region it held;
* `Sized` : the longest text held so far is no shorter than the present one and no longer than the
  region. Every way to make a buffer gives one (`sized_make`);
* `Swells b b'` : `b'` is sized, and the mark of its longest text is not below that of `b`. This is
  what an operation does to a sized buffer, refused or not;
* `sizes_insert`, `sizes_delete` : an insert that does not pass the mark, and any deletion, leave
  the sizes alone.
-/

namespace TextStore

/-- The region of a buffer, how often it was replaced, and the largest text and region so far. -/
structure Sizes where
  capacity : Nat
  growths : Nat
  maxLength : Nat
  maxCapacity : Nat
  deriving DecidableEq, Repr

namespace GapBuffer

variable {b b' b'' : GapBuffer}

def sizes (b : GapBuffer) : Sizes where
  capacity := b.capacity
  growths := b.counters.growths
  maxLength := b.counters.maxLength
  maxCapacity := b.counters.maxCapacity

/-- The mark of the longest text lies between the text and the region. -/
structure Sized (b : GapBuffer) : Prop where
  wellFormed : b.WellFormed
  length_le : b.length ≤ b.counters.maxLength
  maxLength_le : b.counters.maxLength ≤ b.capacity

structure Swells (b b' : GapBuffer) : Prop where
  sized : b'.Sized
  maxLength_le : b.counters.maxLength ≤ b'.counters.maxLength

theorem Swells.refl (hb : b.Sized) : b.Swells b := ⟨hb, Nat.le_refl _⟩

theorem Swells.trans (h : b.Swells b') (h' : b'.Swells b'') : b.Swells b'' :=
  ⟨h'.sized, Nat.le_trans h.maxLength_le h'.maxLength_le⟩

/-- A mark that keeps up with the text stays below the region, which does not shrink. -/
theorem Becomes.swells {t : List UInt8} (hb' : b.Becomes b' t) (hb : b.Sized)
    (hmax : b'.counters.maxLength = max b.counters.maxLength b'.length) : b.Swells b' := by
  have hcap := hb'.capacity
  have hlen := length_le_capacity b'
  have hle := hb.maxLength_le
  refine ⟨⟨hb'.wellFormed, ?_, ?_⟩, ?_⟩
  · rw [hmax]
    exact Nat.le_max_right _ _
  · rw [hmax]
    omega
  · rw [hmax]
    exact Nat.le_max_left _ _

/-- The mark may stay when the text does not become longer. -/
theorem Becomes.swells_of_le {t : List UInt8} (hb' : b.Becomes b' t) (hb : b.Sized)
    (hle : t.length ≤ b.length) (hmax : b'.counters.maxLength = b.counters.maxLength) :
    b.Swells b' := by
  have hlen := length_contents hb'.wellFormed
  have hold := hb.length_le
  rw [hb'.contents] at hlen
  refine hb'.swells hb ?_
  omega

/-! ## Making buffers -/

theorem sized_withCapacity {mem : Memory} {capacity : Nat}
    (hb : withCapacity mem capacity = .ok b) : b.Sized := by
  obtain ⟨hruns, -⟩ := withCapacity_runs hb
  have hmax : b.counters.maxLength = 0 := by
    unfold withCapacity at hb
    split at hb
    · cases hb
      rfl
    · cases hb
  refine ⟨hruns.wellFormed, ?_, ?_⟩
  · rw [hruns.length]
    exact Nat.zero_le _
  · rw [hmax]
    exact Nat.zero_le _

theorem sized_make {start : GapStart} {mem : Memory} (hb : start.make mem = .ok b) : b.Sized := by
  cases start with
  | fresh =>
    simp only [GapStart.make, fresh] at hb
    split at hb
    · next b' hb' =>
      cases hb
      exact sized_withCapacity hb'
    · cases hb
      exact ⟨by decide, by decide, by decide⟩
  | withCapacity capacity => exact sized_withCapacity hb
  | ofBytes bytes =>
    obtain ⟨hruns, -⟩ := ofBytes_runs hb
    have hlen := hruns.length
    have hcap := length_le_capacity b
    have hmax : b.counters.maxLength = bytes.length := by
      simp only [GapStart.make, ofBytes] at hb
      split at hb
      · cases hb
      · split at hb
        · cases hb
          rfl
        · cases hb
    rw [List.length_nil, Nat.add_zero] at hlen
    exact ⟨hruns.wellFormed, by omega, by omega⟩

/-! ## The mark of the longest text -/

@[simp] theorem maxLength_placeGap (b : GapBuffer) (pos : Nat) :
    (b.placeGap pos).counters.maxLength = b.counters.maxLength := by
  unfold placeGap
  split
  · rfl
  · split <;> rfl

theorem maxLength_reserve (mem : Memory) (b : GapBuffer) (needed : Nat) :
    (b.reserve mem needed).2.counters.maxLength = b.counters.maxLength := by
  rcases reserve_cases mem b needed with ⟨-, heq⟩ | ⟨-, -, size, -, heq⟩ | ⟨-, -, n, heq⟩
  · rw [heq]
  · rw [heq]
    rfl
  · rw [heq]

theorem maxLength_makeRoom (mem : Memory) (b : GapBuffer) (count : Nat) :
    (b.makeRoom mem count).2.counters.maxLength = b.counters.maxLength := by
  unfold makeRoom
  split
  · rfl
  · split
    · rfl
    · exact maxLength_reserve mem b _

theorem maxLength_delete (b : GapBuffer) (start stop : Nat) :
    (b.delete start stop).2.counters.maxLength = b.counters.maxLength := by
  unfold delete
  split
  · rfl
  · split
    · rfl
    · split
      · rfl
      · exact maxLength_placeGap b start

theorem maxLength_insert {mem : Memory} {pos : Nat} {bytes : List UInt8}
    (heq : b.insert mem pos bytes = (.ok (), b')) :
    b' = b ∨ b'.counters.maxLength = max b.counters.maxLength b'.length := by
  unfold insert at heq
  split at heq
  · cases heq
  · split at heq
    · cases heq
    · split at heq
      · cases heq
        exact .inl rfl
      · have hroom := maxLength_makeRoom mem b bytes.length
        split at heq
        · cases heq
        · next b₁ hmake =>
          cases heq
          rw [hmake] at hroom
          right
          show max (b₁.placeGap pos).counters.maxLength _ = _
          rw [maxLength_placeGap, hroom]
          rfl

/-! ## What an operation does to a sized buffer -/

theorem swells_insert (hb : b.Sized) (mem : Memory) (pos : Nat) (bytes : List UInt8) :
    b.Swells (b.insert mem pos bytes).2 := by
  rcases insert_cases mem hb.wellFormed pos bytes with ⟨-, heq⟩ | ⟨-, -, heq⟩ | ⟨-, -, -, n, heq⟩ |
    ⟨-, -, -, b', heq, hb'⟩
  · rw [heq]
    exact .refl hb
  · rw [heq]
    exact .refl hb
  · rw [heq]
    exact .refl hb
  · rw [heq]
    rcases maxLength_insert heq with rfl | hmax
    · exact .refl hb
    · exact hb'.swells hb hmax

theorem swells_delete (hb : b.Sized) (start stop : Nat) : b.Swells (b.delete start stop).2 := by
  have hmax := maxLength_delete b start stop
  rcases delete_cases hb.wellFormed start stop with ⟨-, heq⟩ | ⟨-, -, -, heq⟩ |
    ⟨hle, hstop, -, b', heq, hb'⟩
  · rw [heq]
    exact .refl hb
  · rw [heq]
    exact .refl hb
  · rw [heq] at hmax ⊢
    refine hb'.swells_of_le hb ?_ hmax
    rw [← length_contents hb.wellFormed, List.length_append, List.length_take, List.length_drop]
    omega

theorem swells_moveGap (hb : b.Sized) (pos : Nat) : b.Swells (b.moveGap pos).2 := by
  refine (moveGap_becomes hb.wellFormed pos).swells_of_le hb
    (Nat.le_of_eq (length_contents hb.wellFormed)) ?_
  unfold moveGap
  split
  · rfl
  · exact maxLength_placeGap b pos

theorem swells_reserve (hb : b.Sized) (mem : Memory) (needed : Nat) :
    b.Swells (b.reserve mem needed).2 :=
  (reserve_becomes mem hb.wellFormed needed).swells_of_le hb
    (Nat.le_of_eq (length_contents hb.wellFormed)) (maxLength_reserve mem b needed)

/-! ## Edits that leave the sizes alone -/

theorem sizes_placeGap (hb : b.WellFormed) {pos : Nat} (hpos : pos ≤ b.length) :
    (b.placeGap pos).sizes = b.sizes := by
  have hcap := capacity_placeGap hb hpos
  simp only [sizes, hcap, maxLength_placeGap]
  unfold placeGap
  split
  · rfl
  · split <;> rfl

theorem sizes_delete (hb : b.WellFormed) (start stop : Nat) :
    (b.delete start stop).2.sizes = b.sizes := by
  unfold delete
  split
  · rfl
  · split
    · rfl
    · split
      · rfl
      · exact sizes_placeGap hb (by omega)

theorem sizes_fill (hb : b.WellFormed) {bytes : List UInt8} (hroom : bytes.length ≤ b.gapLength)
    (hfits : b.length + bytes.length ≤ b.counters.maxLength) : (b.fill bytes).sizes = b.sizes := by
  have hruns := exists_runs hb
  have hfilled := fill_runs hruns hroom
  have hlen : (b.fill bytes).length = b.length + bytes.length := by
    rw [hfilled.length, hruns.length, List.length_append]
    omega
  have hcap : (b.fill bytes).capacity = b.capacity := by
    rw [hfilled.capacity, hruns.capacity, List.length_append]
    omega
  have hmax : max b.counters.maxLength (b.fill bytes).length = b.counters.maxLength := by omega
  rw [sizes, hcap]
  show Sizes.mk _ _ (max b.counters.maxLength (b.fill bytes).length) _ = _
  rw [hmax]
  rfl

/-- There is room for a text that is not longer than one held before. -/
theorem sizes_insert (hb : b.WellFormed) (mem : Memory) (pos : Nat) {bytes : List UInt8}
    (hfits : b.length + bytes.length ≤ b.counters.maxLength)
    (hmax : b.counters.maxLength ≤ b.capacity) : (b.insert mem pos bytes).2.sizes = b.sizes := by
  have hgap := length_add_gapLength hb
  have hroom : bytes.length ≤ b.gapLength := by omega
  unfold insert
  split
  · rfl
  · next hpos =>
    split
    · rfl
    · split
      · rfl
      · have hruns := placeGap_runs hb (Nat.not_lt.1 hpos)
        have hplaced := sizes_placeGap hb (Nat.not_lt.1 hpos)
        have hlen : (b.placeGap pos).length = b.length := by
          rw [hruns.length, ← List.length_append, List.take_append_drop, length_contents hb]
        rw [makeRoom, if_pos hroom]
        refine (sizes_fill hruns.wellFormed ?_ ?_).trans hplaced
        · rw [hruns.gapLength]
          exact hroom
        · rw [hlen, maxLength_placeGap]
          exact hfits

end GapBuffer

end TextStore
