import TextStore.Gap.Search
import TextStore.Proofs.Gap.Reads
import TextStore.Proofs.Gap.Refinement

/-!
# Searching finds the first match

A search tries the positions of a range one after the other, reads around the gap, and gives up
early in three cases: the start lies past the end, the needle is empty, the needle is longer than
the text.

* `Occurs t needle pos` : the needle stands in the text `t` at `pos`;
* `FirstFrom p start found` : `found` is the first position from `start` on that satisfies `p`, or
  there is none. Only one answer is so (`FirstFrom.unique`);
* `firstIn_eq_some`, `firstIn_eq_none` : what a run over positions finds;
* `firstFrom_findBytes`, `firstFrom_findByte` : both searches answer with the first occurrence;
* `byteAt?_eq_getElem?` : a checked read has a byte to give at the positions of the text and nowhere
  else, so a search whose checks all pass reads nothing outside of it;
* `Searches` : what the searches say together. `search_finds_first` : so they do on every reachable
  buffer.
-/

namespace TextStore

variable {t needle : List UInt8} {byte : UInt8} {pos start count i : Nat}

/-! ## Occurrences -/

/-- `needle` stands in the text `t` at `pos`. -/
def Occurs (t needle : List UInt8) (pos : Nat) : Prop :=
  pos + needle.length ≤ t.length ∧ (t.take (pos + needle.length)).drop pos = needle

instance (t needle : List UInt8) (pos : Nat) : Decidable (Occurs t needle pos) :=
  inferInstanceAs (Decidable (_ ∧ _))

theorem occurs_nil : Occurs t [] pos ↔ pos ≤ t.length := by
  have hempty : (t.take pos).drop pos = [] := List.drop_of_length_le (List.length_take_le _ _)
  simp [Occurs, hempty]

/-- A needle stands where its first byte does, with the rest of it behind. -/
theorem occurs_cons :
    Occurs t (byte :: needle) pos ↔ t[pos]? = some byte ∧ Occurs t needle (pos + 1) := by
  have hstop : pos + (byte :: needle).length = pos + 1 + needle.length := by
    rw [List.length_cons]
    omega
  rw [Occurs, Occurs, hstop]
  by_cases hfits : pos + 1 + needle.length ≤ t.length
  · have hin : pos < (t.take (pos + 1 + needle.length)).length := by
      rw [List.length_take]
      omega
    have hbyte : t[pos]? = some (t.take (pos + 1 + needle.length))[pos] := by
      rw [← List.getElem?_eq_getElem hin, List.getElem?_take_of_lt (by omega)]
    rw [List.drop_eq_getElem_cons hin, List.cons.injEq, hbyte, Option.some.injEq]
    simp only [hfits, true_and]
  · simp only [hfits, false_and, and_false]

theorem occurs_singleton : Occurs t [byte] pos ↔ t[pos]? = some byte := by
  rw [occurs_cons, occurs_nil]
  refine ⟨And.left, fun hbyte => ⟨hbyte, ?_⟩⟩
  exact (List.getElem?_eq_some_iff.1 hbyte).1

/-! ## First positions -/

/-- `found` is the first position from `start` on that satisfies `p`; `none` says that there is no
such position. -/
def FirstFrom (p : Nat → Prop) (start : Nat) : (found : Option Nat) → Prop
  | none => ∀ i, start ≤ i → ¬ p i
  | some i => start ≤ i ∧ p i ∧ ∀ j, start ≤ j → j < i → ¬ p j

theorem FirstFrom.unique {p : Nat → Prop} {found found' : Option Nat} (h : FirstFrom p start found)
    (h' : FirstFrom p start found') : found = found' := by
  rcases found with _ | i <;> rcases found' with _ | j
  · rfl
  · exact absurd h'.2.1 (h j h'.1)
  · exact absurd h.2.1 (h' i h.1)
  · obtain ⟨hi, hpi, hbefore⟩ := h
    obtain ⟨hj, hpj, hbefore'⟩ := h'
    rcases Nat.lt_trichotomy i j with hlt | heq | hgt
    · exact absurd hpi (hbefore' i hi hlt)
    · rw [heq]
    · exact absurd hpj (hbefore j hj hgt)

/-- The first position is the only answer that is first. -/
theorem FirstFrom.eq_iff {p : Nat → Prop} {found found' : Option Nat}
    (h : FirstFrom p start found) : found = found' ↔ FirstFrom p start found' := by
  constructor
  · rintro rfl
    exact h
  · exact h.unique

namespace GapBuffer

variable {b : GapBuffer}

theorem firstIn_eq_none {p : Nat → Bool} {start count : Nat} :
    firstIn p start count = none ↔ ∀ i, start ≤ i → i < start + count → p i = false := by
  induction count generalizing start with
  | zero =>
    refine ⟨fun _ i hi hlt => ?_, fun _ => rfl⟩
    omega
  | succ count ih =>
    rw [firstIn]
    by_cases hp : p start = true
    · rw [if_pos hp]
      refine ⟨by simp, fun hnone => ?_⟩
      rw [hnone start (Nat.le_refl _) (by omega)] at hp
      cases hp
    · rw [if_neg hp, ih]
      constructor
      · intro hnone i hi hlt
        by_cases hfirst : i = start
        · simpa [hfirst] using hp
        · exact hnone i (by omega) (by omega)
      · intro hnone i hi hlt
        exact hnone i (by omega) (by omega)

theorem firstIn_eq_some {p : Nat → Bool} {start count i : Nat} :
    firstIn p start count = some i ↔
      start ≤ i ∧ i < start + count ∧ p i = true ∧ ∀ j, start ≤ j → j < i → p j = false := by
  induction count generalizing start with
  | zero =>
    refine ⟨by simp [firstIn], fun hfound => ?_⟩
    omega
  | succ count ih =>
    rw [firstIn]
    by_cases hp : p start = true
    · rw [if_pos hp, Option.some.injEq]
      constructor
      · rintro rfl
        exact ⟨Nat.le_refl _, by omega, hp, fun j hj hlt => by omega⟩
      · rintro ⟨hi, -, -, hbefore⟩
        rcases Nat.eq_or_lt_of_le hi with heq | hlt
        · exact heq
        · rw [hbefore start (Nat.le_refl _) hlt] at hp
          cases hp
    · rw [if_neg hp, ih]
      constructor
      · rintro ⟨hi, hlt, hpi, hbefore⟩
        refine ⟨by omega, by omega, hpi, fun j hj hji => ?_⟩
        by_cases hfirst : j = start
        · simpa [hfirst] using hp
        · exact hbefore j (by omega) hji
      · rintro ⟨hi, hlt, hpi, hbefore⟩
        have hne : i ≠ start := by
          rintro rfl
          exact hp hpi
        exact ⟨by omega, by omega, hpi, fun j hj hji => hbefore j (by omega) hji⟩

/-- A run over positions finds the first position of `p`, if it runs over all of them. -/
theorem firstFrom_firstIn {p : Nat → Prop} {q : Nat → Bool}
    (hq : ∀ i, start ≤ i → (p i ↔ i < start + count ∧ q i = true)) :
    FirstFrom p start (firstIn q start count) := by
  rcases hfound : firstIn q start count with _ | i
  · have hnone := firstIn_eq_none.1 hfound
    intro i hi hp
    obtain ⟨hlt, htrue⟩ := (hq i hi).1 hp
    rw [hnone i hi hlt] at htrue
    cases htrue
  · obtain ⟨hi, hlt, htrue, hbefore⟩ := firstIn_eq_some.1 hfound
    refine ⟨hi, (hq i hi).2 ⟨hlt, htrue⟩, fun j hj hji hp => ?_⟩
    have hqj := ((hq j hj).1 hp).2
    rw [hbefore j hj hji] at hqj
    cases hqj

/-! ## The two searches -/

theorem byteAt_eq_iff (h : b.WellFormed) (hpos : pos < b.length) (byte : UInt8) :
    (b.byteAt pos == byte) = true ↔ b.contents[pos]? = some byte := by
  rw [getElem?_contents h hpos, beq_iff_eq, Option.some.injEq]

/-- Where there is room for it, the needle is compared with what stands in the text, on whichever
side of the gap. -/
theorem matchesAt_iff (h : b.WellFormed) (hfits : pos + needle.length ≤ b.length) :
    b.matchesAt pos needle = true ↔ Occurs b.contents needle pos := by
  induction needle generalizing pos with
  | nil =>
    rw [occurs_nil, length_contents h]
    exact ⟨fun _ => hfits, fun _ => rfl⟩
  | cons byte rest ih =>
    rw [List.length_cons] at hfits
    rw [matchesAt, Bool.and_eq_true, byteAt_eq_iff h (by omega) byte, ih (by omega), occurs_cons]

theorem firstFrom_findBytes (h : b.WellFormed) (start : Nat) (needle : List UInt8) :
    FirstFrom (Occurs b.contents needle) start (b.findBytes start needle) := by
  have hlen := length_contents h
  unfold findBytes
  split
  · next hpast =>
    intro i hi hoccurs
    have := hoccurs.1
    omega
  next hstart =>
  split
  · next hempty =>
    obtain rfl : needle = [] := List.isEmpty_iff.1 hempty
    exact ⟨Nat.le_refl _, occurs_nil.2 (by omega), fun j hj hlt => by omega⟩
  split
  · next hlong =>
    intro i hi hoccurs
    have := hoccurs.1
    omega
  next hempty hshort =>
  -- the run ends at the last position that has room for the needle
  apply firstFrom_firstIn
  intro i hi
  have hroom : i < start + (b.length - needle.length + 1 - start) ↔
      i + needle.length ≤ b.length := by omega
  rw [hroom]
  constructor
  · intro hoccurs
    have hfits : i + needle.length ≤ b.length := hlen ▸ hoccurs.1
    exact ⟨hfits, (matchesAt_iff h hfits).2 hoccurs⟩
  · rintro ⟨hfits, hmatches⟩
    exact (matchesAt_iff h hfits).1 hmatches

theorem firstFrom_findByte (h : b.WellFormed) (start : Nat) (byte : UInt8) :
    FirstFrom (Occurs b.contents [byte]) start (b.findByte start byte) := by
  apply firstFrom_firstIn
  intro i hi
  have hroom : i < start + (b.length - start) ↔ i < b.length := by omega
  rw [occurs_singleton, hroom]
  constructor
  · intro hbyte
    have hin : i < b.length := by
      rw [← length_contents h]
      exact (List.getElem?_eq_some_iff.1 hbyte).1
    exact ⟨hin, (byteAt_eq_iff h hin byte).2 hbyte⟩
  · rintro ⟨hin, hbyte⟩
    exact (byteAt_eq_iff h hin byte).1 hbyte

/-- A checked read stops everywhere but in the text. -/
theorem byteAt?_eq_getElem? (h : b.WellFormed) (pos : Nat) : b.byteAt? pos = b.contents[pos]? := by
  by_cases hpos : pos < b.length
  · rw [byteAt?_eq h hpos, getElem?_contents h hpos]
  · have hroom := length_add_gapLength h
    have hgap := gapStart_le_length h
    have hpast : b.region.size ≤ pos + b.gapLength := by
      rw [capacity] at hroom
      omega
    rw [byteAt?, if_neg (by omega), gapLength?_eq h, Option.bind_eq_bind, Option.bind_some,
      Array.getElem?_eq_none hpast, List.getElem?_eq_none (by rw [length_contents h]; omega)]

/-- The searches of `b` are searches in the text `t`. -/
structure Searches (b : GapBuffer) (t : List UInt8) : Prop where
  found : ∀ start needle i, b.findBytes start needle = some i ↔
    start ≤ i ∧ Occurs t needle i ∧ ∀ j, start ≤ j → j < i → ¬ Occurs t needle j
  missing : ∀ start needle, b.findBytes start needle = none ↔ ∀ i, start ≤ i → ¬ Occurs t needle i
  empty : ∀ start, b.findBytes start [] = if start ≤ t.length then some start else none
  byte : ∀ start byte, b.findByte start byte = b.findBytes start [byte]
  /-- A read outside of the text is one that stops. -/
  reads : ∀ pos, b.byteAt? pos = t[pos]?
  /-- No read of a search stops, and no subtraction does. -/
  findBytesInText : ∀ start needle, b.findBytes? start needle = some (b.findBytes start needle)
  findByteInText : ∀ start byte, b.findByte? start byte = some (b.findByte start byte)

theorem searches (h : b.WellFormed) : b.Searches b.contents where
  found start needle i := (firstFrom_findBytes h start needle).eq_iff
  missing start needle := (firstFrom_findBytes h start needle).eq_iff
  empty start := by
    apply (firstFrom_findBytes h start []).unique
    split
    · next hle => exact ⟨Nat.le_refl _, occurs_nil.2 hle, fun j hj hlt => by omega⟩
    · next hgt =>
      intro i hi hoccurs
      have := occurs_nil.1 hoccurs
      omega
  byte start byte := (firstFrom_findByte h start byte).unique (firstFrom_findBytes h start [byte])
  reads := byteAt?_eq_getElem? h
  findBytesInText := findBytes?_eq h
  findByteInText := findByte?_eq h

/-- However a buffer was made and edited, and wherever its gap is, a search finds the first match in
its text and nothing else. -/
theorem search_finds_first (hb : b.Reachable) : b.Searches b.contents := searches hb.wellFormed

/-- The match lies across the gap, behind a place where only a part of the needle stands. -/
theorem search_finds_first_acrossGap : ∃ b : GapBuffer, b.Reachable ∧
    b.contents = [97, 98, 97, 98, 99] ∧ b.gapStart = 3 ∧
      (b.findBytes 0 [97, 98, 99] = some 2 ∧ ∀ i < 2, ¬ Occurs b.contents [97, 98, 99] i) ∧
      (b.findBytes 3 [97, 98, 99] = none ∧ ∀ i ≥ 3, ¬ Occurs b.contents [97, 98, 99] i) ∧
      b.findBytes 5 [] = some 5 ∧ b.findBytes 6 [] = none ∧ b.findByte 0 98 = b.findBytes 0 [98] := by
  have hb : GapBuffer.Reachable _ :=
    ⟨.withCapacity 6, .ample, _, [(.ample, .insert 0 [97, 98, 97, 98, 99]), (.ample, .moveGap 3)],
      rfl, rfl⟩
  have hsearches := search_finds_first hb
  have hfound := (hsearches.found 0 [97, 98, 99] 2).1 (by decide +kernel)
  have hmissing := (hsearches.missing 3 [97, 98, 99]).1 (by decide +kernel)
  refine ⟨_, hb, by decide +kernel, by decide +kernel, ⟨by decide +kernel, ?_⟩,
    ⟨by decide +kernel, hmissing⟩, ?_, ?_, hsearches.byte 0 98⟩
  · intro i hi
    exact hfound.2.2 i (Nat.zero_le _) hi
  · exact (hsearches.empty 5).trans (if_pos (by decide +kernel))
  · exact (hsearches.empty 6).trans (if_neg (by decide +kernel))

end GapBuffer

end TextStore
