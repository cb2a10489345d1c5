import TextStore.Gap.Edit

/-!
# The text under the operations of a gap buffer

`contents` is the view through which everything else talks about a gap buffer. A well-formed region
reads as the front run, a gap and the back run (`exists_runs`), and a region that reads so is
well-formed with these runs (`Runs.wellFormed`). On a well-formed buffer:

* moving the gap and growing the region keep the text (`placeGap_runs`, `grow_runs`);
* filling the gap and absorbing into it change the text at the gap only (`fill_runs`,
  `absorb_runs`);
* an accepted insert or delete is a splice of the text (`insert_of_ok`, `delete_of_ok`), and one
  that needs no growth is accepted (`insert_of_fits`, `delete_of_writable`).
-/

namespace TextStore

namespace Region

theorem toList_write (r : Region) (offset : Nat) (bytes : Array UInt8) :
    (r.write offset bytes).toList =
      r.toList.take offset ++ bytes.toList ++ r.toList.drop (offset + bytes.size) := by
  rw [write, Array.toList_append, Array.toList_append, Array.toList_extract, Array.toList_extract,
    List.extract_eq_take_drop, List.extract_eq_take_drop, List.drop_zero, Nat.sub_zero,
    List.take_of_length_le (l := r.toList.drop _) (by simp)]

theorem toList_slide (r : Region) {start stop : Nat} (dest : Nat) (h : stop ≤ r.size) :
    (r.slide start stop dest).toList =
      r.toList.take dest ++ (r.toList.take stop).drop start ++
        r.toList.drop (dest + (stop - start)) := by
  rw [slide, toList_write, Array.size_extract, Nat.min_eq_left h, Array.toList_extract,
    List.extract_eq_take_drop, List.drop_take]

theorem toList_resplit (r : Region) (front back size : Nat) :
    (r.resplit front back size).toList =
      r.toList.take front ++ List.replicate (size - (r.size - back) - front) 0 ++
        r.toList.drop back := by
  rw [resplit, zeroed, Array.toList_append, Array.toList_append, Array.toList_extract,
    Array.toList_extract, List.extract_eq_take_drop, List.extract_eq_take_drop, List.drop_zero,
    Nat.sub_zero, Array.toList_replicate, List.take_of_length_le (l := r.toList.drop _) (by simp)]

end Region

namespace GapBuffer

variable {b : GapBuffer}

/-! ## The two runs of text -/

theorem front_eq_take (b : GapBuffer) : b.front = b.region.toList.take b.gapStart := by
  rw [front, Array.toList_extract, List.extract_eq_take_drop, List.drop_zero, Nat.sub_zero]

theorem back_eq_drop (b : GapBuffer) : b.back = b.region.toList.drop b.gapEnd := by
  rw [back, Array.toList_extract, List.extract_eq_take_drop]
  exact List.take_of_length_le (by simp)

/-- The region reads as the run `f`, a gap of `gap` bytes, and the run `k`. -/
structure Runs (b : GapBuffer) (f : List UInt8) (gap : Nat) (k : List UInt8) : Prop where
  region : ∃ g : List UInt8, g.length = gap ∧ b.region.toList = f ++ g ++ k
  gapStart : b.gapStart = f.length
  gapEnd : b.gapEnd = f.length + gap

namespace Runs

variable {f k : List UInt8} {gap : Nat}

theorem capacity (h : b.Runs f gap k) : b.capacity = f.length + gap + k.length := by
  obtain ⟨⟨g, hg, hr⟩, -, -⟩ := h
  rw [GapBuffer.capacity, ← Array.length_toList, hr, List.length_append, List.length_append, hg]

theorem wellFormed (h : b.Runs f gap k) : b.WellFormed := by
  have hcap := h.capacity
  rw [GapBuffer.capacity] at hcap
  rw [WellFormed, h.gapStart, h.gapEnd, hcap]
  omega

theorem front (h : b.Runs f gap k) : b.front = f := by
  obtain ⟨⟨g, -, hr⟩, hs, -⟩ := h
  rw [front_eq_take, hr, hs, List.append_assoc, List.take_left]

theorem back (h : b.Runs f gap k) : b.back = k := by
  obtain ⟨⟨g, hg, hr⟩, -, he⟩ := h
  rw [back_eq_drop, hr, he, ← hg, ← List.length_append, List.drop_left]

theorem contents (h : b.Runs f gap k) : b.contents = f ++ k := by
  rw [GapBuffer.contents, h.front, h.back]

theorem gapLength (h : b.Runs f gap k) : b.gapLength = gap := by
  rw [GapBuffer.gapLength, h.gapEnd, h.gapStart]
  omega

theorem length (h : b.Runs f gap k) : b.length = f.length + k.length := by
  rw [GapBuffer.length, h.capacity, h.gapLength]
  omega

end Runs

/-- A well-formed buffer reads as its two runs around the gap. -/
theorem exists_runs (h : b.WellFormed) : b.Runs b.front b.gapLength b.back := by
  obtain ⟨hgap, hend⟩ := h
  have hfront : b.front.length = b.gapStart := by
    rw [front_eq_take, List.length_take, Array.length_toList]
    omega
  refine ⟨⟨(b.region.toList.take b.gapEnd).drop b.gapStart, ?_, ?_⟩, hfront.symm, ?_⟩
  · rw [List.length_drop, List.length_take, Array.length_toList, gapLength]
    omega
  · have hsplit : b.front ++ (b.region.toList.take b.gapEnd).drop b.gapStart =
        b.region.toList.take b.gapEnd := by
      rw [front_eq_take]
      conv => rhs; rw [← List.take_append_drop b.gapStart (b.region.toList.take b.gapEnd)]
      rw [List.take_take, Nat.min_eq_left hgap]
    rw [hsplit, back_eq_drop, List.take_append_drop]
  · rw [hfront, gapLength]
    omega

theorem length_contents (h : b.WellFormed) : b.contents.length = b.length := by
  rw [(exists_runs h).length, contents, List.length_append]

theorem length_add_gapLength (h : b.WellFormed) : b.length + b.gapLength = b.capacity := by
  rw [(exists_runs h).length, (exists_runs h).capacity]
  omega

theorem length_le_capacity (b : GapBuffer) : b.length ≤ b.capacity := Nat.sub_le _ _

theorem length_contents_le (h : b.WellFormed) : b.contents.length ≤ b.capacity := by
  rw [length_contents h]
  exact b.length_le_capacity

theorem length_take_contents (h : b.WellFormed) {pos : Nat} (hpos : pos ≤ b.length) :
    (b.contents.take pos).length = pos := by
  rw [List.length_take, length_contents h]
  exact Nat.min_eq_left hpos

/-- The gap of a well-formed buffer stands at a position of its text. -/
theorem gapStart_le_length (h : b.WellFormed) : b.gapStart ≤ b.length := by
  rw [(exists_runs h).length, (exists_runs h).gapStart]
  omega

/-! ## Making buffers -/

theorem withCapacity_runs {mem : Memory} {capacity : Nat} {b : GapBuffer}
    (h : withCapacity mem capacity = .ok b) : b.Runs [] capacity [] ∧ b.readOnly = false := by
  unfold withCapacity at h
  split at h
  · cases h
    refine ⟨⟨⟨List.replicate capacity 0, List.length_replicate, ?_⟩, rfl, ?_⟩, rfl⟩
    · simp [Region.zeroed]
    · simp
  · cases h

theorem ofBytes_runs {mem : Memory} {bytes : List UInt8} {b : GapBuffer}
    (h : ofBytes mem bytes = .ok b) : b.Runs bytes minGap [] ∧ b.readOnly = false := by
  simp only [ofBytes] at h
  split at h
  · cases h
  · split at h
    · cases h
      refine ⟨⟨⟨List.replicate minGap 0, List.length_replicate, ?_⟩, rfl, rfl⟩, rfl⟩
      rw [Region.toList_write, Region.zeroed, Array.toList_replicate]
      simp
    · cases h

/-! ## Moving the gap -/

/-- The gap moves left: the bytes between its new place and the old one come after it. -/
theorem placeGap_runs_left (f₁ f₂ : List UInt8) {k : List UInt8} {gap : Nat}
    (h : b.Runs (f₁ ++ f₂) gap k) (hne : f₂ ≠ []) :
    (b.placeGap f₁.length).Runs f₁ gap (f₂ ++ k) := by
  have hcap := h.capacity
  obtain ⟨⟨g, hg, hr⟩, hs, he⟩ := h
  have hf₂ : 0 < f₂.length := List.length_pos_iff.2 hne
  rw [List.length_append] at hs he hcap
  have hlt : f₁.length < b.gapStart := by omega
  have hdest : b.gapEnd - (b.gapStart - f₁.length) = f₁.length + gap := by omega
  -- the copied block `f₂` ends where the gap ended
  have hregion : (b.region.slide f₁.length b.gapStart (f₁.length + gap)).toList =
      f₁ ++ (f₂ ++ g).take gap ++ (f₂ ++ k) := by
    have hhead : (f₁ ++ f₂ ++ g ++ k).take (f₁.length + gap) = f₁ ++ (f₂ ++ g).take gap := by
      rw [List.append_assoc, List.append_assoc, List.take_length_add_append, ← List.append_assoc,
        List.take_append_of_le_length (by rw [List.length_append]; omega)]
    have hblock : ((f₁ ++ f₂ ++ g ++ k).take b.gapStart).drop f₁.length = f₂ := by
      rw [hs, ← List.length_append, List.append_assoc _ g, List.take_left, List.drop_left]
    have htail : (f₁ ++ f₂ ++ g ++ k).drop (f₁.length + gap + (b.gapStart - f₁.length)) = k := by
      rw [show f₁.length + gap + (b.gapStart - f₁.length) = (f₁ ++ f₂ ++ g).length by
        rw [List.length_append, List.length_append]; omega, List.drop_left]
    rw [Region.toList_slide _ _ (by rw [capacity] at hcap; omega), hr, hhead, hblock, htail,
      List.append_assoc _ f₂]
  refine ⟨⟨(f₂ ++ g).take gap, ?_, ?_⟩, ?_, ?_⟩
  · rw [List.length_take, List.length_append]
    omega
  · simp only [placeGap, if_pos hlt, hdest]
    exact hregion
  · simp only [placeGap, if_pos hlt]
  · simp only [placeGap, if_pos hlt]
    exact hdest

/-- The gap moves right: the bytes between the old place and the new one come before it. -/
theorem placeGap_runs_right {f : List UInt8} (k₁ k₂ : List UInt8) {gap : Nat}
    (h : b.Runs f gap (k₁ ++ k₂)) (hne : k₁ ≠ []) :
    (b.placeGap (f.length + k₁.length)).Runs (f ++ k₁) gap k₂ := by
  have hcap := h.capacity
  obtain ⟨⟨g, hg, hr⟩, hs, he⟩ := h
  have hk₁ : 0 < k₁.length := List.length_pos_iff.2 hne
  rw [List.length_append] at hcap
  have hlt : b.gapStart < f.length + k₁.length := by omega
  have hnlt : ¬ f.length + k₁.length < b.gapStart := by omega
  have hdist : f.length + k₁.length - b.gapStart = k₁.length := by omega
  -- what the copied block `k₁` leaves of the gap and of itself is the new gap
  have hregion : (b.region.slide b.gapEnd (b.gapEnd + k₁.length) b.gapStart).toList =
      f ++ k₁ ++ (g ++ k₁).drop k₁.length ++ k₂ := by
    have hblock : ((f ++ g ++ (k₁ ++ k₂)).take (b.gapEnd + k₁.length)).drop b.gapEnd = k₁ := by
      rw [he, ← hg, ← List.length_append, List.take_length_add_append, List.take_left,
        List.drop_left]
    have htail : (f ++ g ++ (k₁ ++ k₂)).drop (f.length + k₁.length) =
        (g ++ k₁).drop k₁.length ++ k₂ := by
      rw [List.append_assoc, List.drop_length_add_append, ← List.append_assoc,
        List.drop_append_of_le_length (by rw [List.length_append]; omega)]
    rw [Region.toList_slide _ _ (by rw [capacity] at hcap; omega), hr, Nat.add_sub_cancel_left,
      hblock, hs, htail, List.append_assoc f g, List.take_left, List.append_assoc (f ++ k₁)]
  refine ⟨⟨(g ++ k₁).drop k₁.length, ?_, ?_⟩, ?_, ?_⟩
  · rw [List.length_drop, List.length_append]
    omega
  · simp only [placeGap, if_neg hnlt, if_pos hlt, hdist]
    exact hregion
  · simp only [placeGap, if_neg hnlt, if_pos hlt, hdist, List.length_append]
    omega
  · simp only [placeGap, if_neg hnlt, if_pos hlt, hdist, List.length_append]
    omega

/-- Wherever the gap goes, the text is split there and stays as it was. -/
theorem placeGap_runs (h : b.WellFormed) {pos : Nat} (hpos : pos ≤ b.length) :
    (b.placeGap pos).Runs (b.contents.take pos) b.gapLength (b.contents.drop pos) := by
  have hruns := exists_runs h
  have hlen := hruns.length
  rcases Nat.lt_trichotomy pos b.gapStart with hlt | heq | hgt
  · have htake : (b.front.take pos).length = pos := by
      rw [List.length_take, ← hruns.gapStart]; omega
    have hleft := placeGap_runs_left (b.front.take pos) (b.front.drop pos)
      (by rw [List.take_append_drop]; exact hruns) (by
        rw [ne_eq, List.drop_eq_nil_iff, ← hruns.gapStart]; omega)
    rw [htake] at hleft
    rw [contents, List.take_append_of_le_length (by rw [← hruns.gapStart]; omega),
      List.drop_append_of_le_length (by rw [← hruns.gapStart]; omega)]
    exact hleft
  · have hself : b.placeGap pos = b := by simp [placeGap, heq]
    rw [hself, contents, show pos = b.front.length by rw [heq, hruns.gapStart], List.take_left,
      List.drop_left]
    exact hruns
  · have hfront := hruns.gapStart
    have hrest : b.front.length + (b.back.take (pos - b.front.length)).length = pos := by
      rw [List.length_take]
      omega
    have hright := placeGap_runs_right (b.back.take (pos - b.front.length))
      (b.back.drop (pos - b.front.length)) (by rw [List.take_append_drop]; exact hruns) (by
        rw [ne_eq, ← List.length_eq_zero_iff]; omega)
    rw [hrest] at hright
    rw [contents, List.take_append, List.drop_append,
      List.take_of_length_le (l := b.front) (by omega),
      List.drop_of_length_le (l := b.front) (by omega), List.nil_append]
    exact hright

theorem capacity_placeGap (h : b.WellFormed) {pos : Nat} (hpos : pos ≤ b.length) :
    (b.placeGap pos).capacity = b.capacity := by
  have hlen := length_contents h
  rw [(placeGap_runs h hpos).capacity, ← length_add_gapLength h, List.length_take, List.length_drop]
  omega

@[simp] theorem readOnly_placeGap (b : GapBuffer) (pos : Nat) :
    (b.placeGap pos).readOnly = b.readOnly := by
  unfold placeGap
  split
  · rfl
  · split <;> rfl

/-! ## Growing -/

/-- Growing widens the gap and nothing else. -/
theorem grow_runs (h : b.WellFormed) {size : Nat} (hsize : b.capacity ≤ size) :
    (b.grow size).Runs b.front (size - b.length) b.back := by
  have hruns := exists_runs h
  have hcap := hruns.capacity
  have hlen := hruns.length
  have hsize' := b.region.length_toList
  obtain ⟨⟨g, hg, hr⟩, hs, he⟩ := hruns
  have hback : b.region.size - b.gapEnd = b.back.length := by
    rw [capacity] at hcap; omega
  refine ⟨⟨List.replicate (size - b.length) 0, List.length_replicate, ?_⟩, hs, ?_⟩
  · simp only [grow]
    rw [Region.toList_resplit, hback, ← front_eq_take, ← back_eq_drop, hs, hlen,
      Nat.sub_sub, Nat.add_comm b.front.length]
  · simp only [grow, hback]
    omega

/-- Memory grants a region for `needed` bytes: the present one is large enough, or the region that
the growth policy asks for is handed out. -/
def Grants (mem : Memory) (b : GapBuffer) (needed : Nat) : Prop :=
  b.capacity < needed → ∃ size, grownCapacity? b.capacity needed = some size ∧ mem.region size = true

theorem le_of_grownCapacity? {old needed size : Nat} (h : grownCapacity? old needed = some size) :
    needed + minGap ≤ size ∧ needed + minGap < wordRange := by
  unfold grownCapacity? at h
  split at h
  · next hfits =>
    cases h
    exact ⟨Nat.le_max_right _ _, hfits.2⟩
  · cases h

/-- What `reserve` answers: nothing to do, a larger region with the same runs, or a refusal that
leaves the buffer alone. -/
theorem reserve_cases (mem : Memory) (b : GapBuffer) (needed : Nat) :
    (needed ≤ b.capacity ∧ b.reserve mem needed = (.ok (), b)) ∨
    (b.capacity < needed ∧ b.Grants mem needed ∧ ∃ size, needed + minGap ≤ size ∧
      b.reserve mem needed = (.ok (), b.grow size)) ∨
    (b.capacity < needed ∧ ¬ b.Grants mem needed ∧
      ∃ n, b.reserve mem needed = (.error (.allocationFailed n), b)) := by
  unfold reserve
  split
  · next hle => exact .inl ⟨hle, rfl⟩
  · next hgt =>
    have hlt : b.capacity < needed := Nat.not_le.1 hgt
    right
    cases hgrown : grownCapacity? b.capacity needed with
    | none =>
      refine .inr ⟨hlt, fun hgrants => ?_, needed, rfl⟩
      obtain ⟨size, hsize, -⟩ := hgrants hlt
      rw [hgrown] at hsize
      cases hsize
    | some size =>
      have hsize := le_of_grownCapacity? hgrown
      by_cases hmem : mem.region size = true
      · refine .inl ⟨hlt, fun _ => ⟨size, hgrown, hmem⟩, size, hsize.1, ?_⟩
        simp only [if_pos hmem]
      · refine .inr ⟨hlt, fun hgrants => ?_, size, ?_⟩
        · obtain ⟨size', hsize', hmem'⟩ := hgrants hlt
          rw [hgrown] at hsize'
          cases hsize'
          exact hmem hmem'
        · simp only [if_neg hmem]

/-- Making room for `count` bytes is reserving the text's length and these bytes. -/
theorem makeRoom_cases (mem : Memory) (h : b.WellFormed) (count : Nat) :
    (b.Grants mem (b.length + count) ∧ ∃ gap b', b.makeRoom mem count = (.ok (), b') ∧
      b'.Runs b.front gap b.back ∧ count ≤ gap ∧ b'.readOnly = b.readOnly ∧
      b.capacity ≤ b'.capacity) ∨
    (¬ b.Grants mem (b.length + count) ∧
      ∃ n, b.makeRoom mem count = (.error (.allocationFailed n), b)) := by
  have hroom := length_add_gapLength h
  have hruns := exists_runs h
  unfold makeRoom
  split
  · next hle =>
    exact .inl ⟨fun hlt => absurd hlt (by omega), b.gapLength, b, rfl, hruns, hle, rfl,
      Nat.le_refl _⟩
  · next hgt =>
    have hlt : b.capacity < b.length + count := by omega
    split
    · next hword =>
      refine .inr ⟨fun hgrants => ?_, count, rfl⟩
      obtain ⟨size, hsize, -⟩ := hgrants hlt
      have := (le_of_grownCapacity? hsize).2
      omega
    · rcases reserve_cases mem b (b.length + count) with ⟨hle, -⟩ | ⟨-, hgrants, size, hsize, heq⟩ |
        ⟨-, hgrants, n, heq⟩
      · omega
      · have hle : b.capacity ≤ size := by omega
        have hgrown := grow_runs h hle
        refine .inl ⟨hgrants, size - b.length, b.grow size, heq, hgrown, by omega, rfl, ?_⟩
        have hlen := hruns.length
        rw [hgrown.capacity]
        omega
      · exact .inr ⟨hgrants, n, heq⟩

/-! ## Editing at the gap -/

theorem fill_runs {f k : List UInt8} {gap : Nat} (h : b.Runs f gap k) {bytes : List UInt8}
    (hfits : bytes.length ≤ gap) : (b.fill bytes).Runs (f ++ bytes) (gap - bytes.length) k := by
  obtain ⟨⟨g, hg, hr⟩, hs, he⟩ := h
  refine ⟨⟨g.drop bytes.length, ?_, ?_⟩, ?_, ?_⟩
  · rw [List.length_drop, hg]
  · simp only [fill]
    rw [Region.toList_write, hr, hs, List.size_toArray, List.append_assoc f, List.take_left,
      List.drop_length_add_append, List.drop_append_of_le_length (by omega), ← List.append_assoc]
  · simp only [fill, hs, List.length_append]
  · simp only [fill, he, List.length_append]
    omega

theorem absorb_runs {f : List UInt8} (k₁ k₂ : List UInt8) {gap : Nat}
    (h : b.Runs f gap (k₁ ++ k₂)) : (b.absorb k₁.length).Runs f (gap + k₁.length) k₂ := by
  obtain ⟨⟨g, hg, hr⟩, hs, he⟩ := h
  refine ⟨⟨g ++ k₁, ?_, ?_⟩, hs, ?_⟩
  · rw [List.length_append, hg]
  · simp only [absorb]
    rw [hr, List.append_assoc, List.append_assoc, List.append_assoc]
  · simp only [absorb, he, Nat.add_assoc]

theorem filled_runs (h : b.WellFormed) {pos : Nat} (hpos : pos ≤ b.length) {bytes : List UInt8}
    (hfits : bytes.length ≤ b.gapLength) :
    ((b.placeGap pos).fill bytes).Runs (b.contents.take pos ++ bytes)
      (b.gapLength - bytes.length) (b.contents.drop pos) :=
  fill_runs (placeGap_runs h hpos) hfits

theorem absorbed_runs (h : b.WellFormed) {start stop : Nat} (hle : start ≤ stop)
    (hstop : stop ≤ b.length) :
    ((b.placeGap start).absorb (stop - start)).Runs (b.contents.take start)
      (b.gapLength + (stop - start)) (b.contents.drop stop) := by
  have hlen := length_contents h
  have hplaced := placeGap_runs h (Nat.le_trans hle hstop)
  have hback : b.contents.drop start =
      (b.contents.drop start).take (stop - start) ++ b.contents.drop stop := by
    conv => lhs; rw [← List.take_append_drop (stop - start) (b.contents.drop start)]
    rw [List.drop_drop, Nat.add_sub_cancel' hle]
  have hcount : ((b.contents.drop start).take (stop - start)).length = stop - start := by
    rw [List.length_take, List.length_drop]
    omega
  rw [hback] at hplaced
  have habsorbed := absorb_runs _ _ hplaced
  rwa [hcount] at habsorbed

/-! ## Inserting and deleting -/

/-- `b'` is what an accepted operation made of `b`: well-formed, with the text `t`, as writable as
before and with a region at least as large. -/
structure Becomes (b b' : GapBuffer) (t : List UInt8) : Prop where
  wellFormed : b'.WellFormed
  contents : b'.contents = t
  readOnly : b'.readOnly = b.readOnly
  capacity : b.capacity ≤ b'.capacity

theorem Becomes.refl (h : b.WellFormed) : b.Becomes b b.contents := ⟨h, rfl, rfl, Nat.le_refl _⟩

theorem Becomes.trans {b' b'' : GapBuffer} {t t' : List UInt8} (h : b.Becomes b' t)
    (h' : b'.Becomes b'' t') : b.Becomes b'' t' :=
  ⟨h'.wellFormed, h'.contents, h'.readOnly.trans h.readOnly, Nat.le_trans h.capacity h'.capacity⟩

theorem Runs.becomes {b' : GapBuffer} {f k : List UInt8} {gap : Nat} (h : b'.Runs f gap k)
    (hro : b'.readOnly = b.readOnly) (hcap : b.capacity ≤ b'.capacity) :
    b.Becomes b' (f ++ k) :=
  ⟨h.wellFormed, h.contents, hro, hcap⟩

/-- Moving the gap, accepted or not, keeps the text. -/
theorem moveGap_becomes (h : b.WellFormed) (pos : Nat) :
    b.Becomes (b.moveGap pos).2 b.contents := by
  unfold moveGap
  split
  · exact .refl h
  · next hge =>
    have hpos : pos ≤ b.length := Nat.not_lt.1 hge
    have hplaced := (placeGap_runs h hpos).becomes (readOnly_placeGap b pos)
      (Nat.le_of_eq (capacity_placeGap h hpos).symm)
    rwa [List.take_append_drop] at hplaced

/-- Reserving, granted or not, keeps the text. -/
theorem reserve_becomes (mem : Memory) (h : b.WellFormed) (needed : Nat) :
    b.Becomes (b.reserve mem needed).2 b.contents := by
  rcases reserve_cases mem b needed with ⟨-, heq⟩ | ⟨hlt, -, size, hsize, heq⟩ | ⟨-, -, n, heq⟩
  · rw [heq]
    exact .refl h
  · rw [heq]
    have hle : b.capacity ≤ size := by omega
    have hlen := length_le_capacity b
    have hruns := grow_runs h hle
    refine hruns.becomes rfl ?_
    have hold := (exists_runs h).length
    rw [hruns.capacity]
    omega
  · rw [heq]
    exact .refl h

theorem insert_cases (mem : Memory) (h : b.WellFormed) (pos : Nat) (bytes : List UInt8) :
    (b.length < pos ∧ b.insert mem pos bytes = (.error (.invalidPosition pos b.length), b)) ∨
    (pos ≤ b.length ∧ b.readOnly = true ∧ b.insert mem pos bytes = (.error .readOnly, b)) ∨
    (pos ≤ b.length ∧ b.readOnly = false ∧ ¬ b.Grants mem (b.length + bytes.length) ∧
      ∃ n, b.insert mem pos bytes = (.error (.allocationFailed n), b)) ∨
    (pos ≤ b.length ∧ b.readOnly = false ∧ b.Grants mem (b.length + bytes.length) ∧
      ∃ b', b.insert mem pos bytes = (.ok (), b') ∧
        b.Becomes b' (b.contents.take pos ++ bytes ++ b.contents.drop pos)) := by
  unfold insert
  split
  · next hlt => exact .inl ⟨hlt, rfl⟩
  next hge =>
  have hpos : pos ≤ b.length := Nat.not_lt.1 hge
  right
  split
  · next hro => exact .inl ⟨hpos, hro, rfl⟩
  next hro =>
  have hw : b.readOnly = false := by simpa using hro
  right
  split
  · next hempty =>
    obtain rfl : bytes = [] := List.isEmpty_iff.1 hempty
    refine .inr ⟨hpos, hw, fun hlt => ?_, b, rfl, ?_⟩
    · have := length_le_capacity b
      simp only [List.length_nil] at hlt
      omega
    · rw [List.append_nil, List.take_append_drop]
      exact .refl h
  · rcases makeRoom_cases mem h bytes.length with
      ⟨hgrants, gap, b', heq, hruns, hgap, hro', hcap⟩ | ⟨hgrants, n, heq⟩
    · rw [heq]
      refine .inr ⟨hpos, hw, hgrants, _, rfl, ?_⟩
      have hlen : b'.length = b.length := by rw [hruns.length, (exists_runs h).length]
      have hplaced := placeGap_runs hruns.wellFormed (hlen ▸ hpos)
      rw [hruns.contents, hruns.gapLength] at hplaced
      have hfilled := fill_runs hplaced hgap
      refine hfilled.becomes ?_ ?_
      · exact (readOnly_placeGap b' pos).trans hro'
      · refine Nat.le_trans hcap ?_
        rw [hfilled.capacity, List.length_append, ← capacity_placeGap hruns.wellFormed
          (hlen ▸ hpos), hplaced.capacity]
        omega
    · rw [heq]
      exact .inl ⟨hpos, hw, hgrants, n, rfl⟩

/-- An insert into a writable buffer that need not grow is accepted, whatever memory says. -/
theorem insert_of_fits (mem : Memory) (h : b.WellFormed) {pos : Nat} (hpos : pos ≤ b.length)
    (hw : b.readOnly = false) {bytes : List UInt8} (hfits : b.length + bytes.length ≤ b.capacity) :
    ∃ b', b.insert mem pos bytes = (.ok (), b') ∧
      b.Becomes b' (b.contents.take pos ++ bytes ++ b.contents.drop pos) := by
  rcases insert_cases mem h pos bytes with ⟨hlt, -⟩ | ⟨-, hro, -⟩ | ⟨-, -, hno, -⟩ | ⟨-, -, -, hok⟩
  · omega
  · rw [hw] at hro
    cases hro
  · exact absurd (fun hlt => absurd hlt (by omega)) hno
  · exact hok

theorem delete_cases (h : b.WellFormed) (start stop : Nat) :
    ((stop < start ∨ b.length < stop) ∧
      b.delete start stop = (.error (.outOfBounds start stop b.length), b)) ∨
    (start ≤ stop ∧ stop ≤ b.length ∧ b.readOnly = true ∧
      b.delete start stop = (.error .readOnly, b)) ∨
    (start ≤ stop ∧ stop ≤ b.length ∧ b.readOnly = false ∧
      ∃ b', b.delete start stop = (.ok (), b') ∧
        b.Becomes b' (b.contents.take start ++ b.contents.drop stop)) := by
  unfold delete
  split
  · next hbad => exact .inl ⟨hbad, rfl⟩
  next hbad =>
  have hle : start ≤ stop ∧ stop ≤ b.length := by omega
  right
  split
  · next hro => exact .inl ⟨hle.1, hle.2, hro, rfl⟩
  next hro =>
  have hw : b.readOnly = false := by simpa using hro
  refine .inr ⟨hle.1, hle.2, hw, ?_⟩
  split
  · next heq =>
    subst heq
    refine ⟨b, rfl, ?_⟩
    rw [List.take_append_drop]
    exact .refl h
  · have habsorbed := absorbed_runs h hle.1 hle.2
    refine ⟨_, rfl, habsorbed.becomes (readOnly_placeGap b start) (Nat.le_of_eq ?_)⟩
    rw [← capacity_placeGap h (show start ≤ b.length by omega)]
    rfl

theorem delete_of_writable (h : b.WellFormed) (hw : b.readOnly = false) {start stop : Nat}
    (hle : start ≤ stop) (hstop : stop ≤ b.length) :
    ∃ b', b.delete start stop = (.ok (), b') ∧
      b.Becomes b' (b.contents.take start ++ b.contents.drop stop) := by
  rcases delete_cases h start stop with ⟨hbad, -⟩ | ⟨-, -, hro, -⟩ | ⟨-, -, -, hok⟩
  · omega
  · rw [hw] at hro
    cases hro
  · exact hok

/-! ## Accepted edits -/

theorem insert_of_ok (h : b.WellFormed) {mem : Memory} {pos : Nat} {bytes : List UInt8}
    {b' : GapBuffer} (heq : b.insert mem pos bytes = (.ok (), b')) :
    pos ≤ b.length ∧ b.Becomes b' (b.contents.take pos ++ bytes ++ b.contents.drop pos) := by
  rcases insert_cases mem h pos bytes with ⟨-, hno⟩ | ⟨-, -, hno⟩ | ⟨-, -, -, n, hno⟩ |
    ⟨hpos, -, -, b₁, heq₁, hb₁⟩
  · rw [heq] at hno
    cases hno
  · rw [heq] at hno
    cases hno
  · rw [heq] at hno
    cases hno
  · rw [heq] at heq₁
    cases heq₁
    exact ⟨hpos, hb₁⟩

theorem delete_of_ok (h : b.WellFormed) {start stop : Nat} {b' : GapBuffer}
    (heq : b.delete start stop = (.ok (), b')) :
    start ≤ stop ∧ stop ≤ b.length ∧
      b.Becomes b' (b.contents.take start ++ b.contents.drop stop) := by
  rcases delete_cases h start stop with ⟨-, hno⟩ | ⟨-, -, -, hno⟩ | ⟨hle, hstop, -, b₁, heq₁, hb₁⟩
  · rw [heq] at hno
    cases hno
  · rw [heq] at hno
    cases hno
  · rw [heq] at heq₁
    cases heq₁
    exact ⟨hle, hstop, hb₁⟩

theorem replace_of_ok (h : b.WellFormed) {mem : Memory} {start stop : Nat} {bytes : List UInt8}
    {b₁ b₂ : GapBuffer} (hdelete : b.delete start stop = (.ok (), b₁))
    (hinsert : b₁.insert mem start bytes = (.ok (), b₂)) :
    b.Becomes b₂ (b.contents.take start ++ bytes ++ b.contents.drop stop) := by
  obtain ⟨hle, hstop, hb₁⟩ := delete_of_ok h hdelete
  obtain ⟨-, hb₂⟩ := insert_of_ok hb₁.wellFormed hinsert
  have hlen := length_take_contents h (Nat.le_trans hle hstop)
  rw [hb₁.contents, List.take_left' hlen, List.drop_left' hlen] at hb₂
  exact hb₁.trans hb₂

/-- A text is what stands before, in and after a range. -/
theorem eq_before_in_after {start stop : Nat} (hle : start ≤ stop) (t : List UInt8) :
    t = t.take start ++ (t.take stop).drop start ++ t.drop stop := by
  conv => lhs; rw [← List.take_append_drop stop t, ← List.take_append_drop start (t.take stop)]
  rw [List.take_take, Nat.min_eq_left hle]

end GapBuffer

end TextStore
