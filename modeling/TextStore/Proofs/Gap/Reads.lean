import TextStore.Gap.Read
import TextStore.Proofs.Gap.Contents

/-!
# Reading the text

* `getElem?_contents` : the byte at a position is the byte of the text there;
* `slice_eq` : the bytes read around the gap are a range of the text;
* `extract_cases` : everything a copy of a range can answer.
-/

namespace TextStore.GapBuffer

variable {b : GapBuffer}

theorem toList_region_extract (r : Region) (start stop : Nat) :
    (r.extract start stop).toList = (r.toList.take stop).drop start := by
  rw [Array.toList_extract, List.extract_eq_take_drop, List.drop_take]

/-- A byte read through its index in the region is the byte of the text. -/
theorem getElem?_contents (h : b.WellFormed) {pos : Nat} (hpos : pos < b.length) :
    b.contents[pos]? = some (b.byteAt pos) := by
  have hruns := exists_runs h
  have hlen := hruns.length
  obtain ⟨⟨g, hg, hr⟩, hs, -⟩ := hruns
  have hbyte : b.region.toList[b.physical pos]? = b.contents[pos]? := by
    rw [contents, hr]
    by_cases hfront : pos < b.front.length
    · have hphysical : b.physical pos = pos := if_pos (by omega)
      rw [hphysical, List.append_assoc, List.getElem?_append_left hfront,
        List.getElem?_append_left hfront]
    · have hphysical : b.physical pos = (b.front ++ g).length + (pos - b.front.length) := by
        rw [physical, if_neg (by omega), List.length_append]
        omega
      rw [hphysical, List.getElem?_append_right (by omega), Nat.add_sub_cancel_left,
        List.getElem?_append_right (by omega)]
  have hin : pos < b.contents.length := by rwa [length_contents h]
  rw [byteAt, Array.getD_eq_getD_getElem?, ← Array.getElem?_toList, hbyte,
    List.getElem?_eq_getElem hin, Option.getD_some]

/-- The text of a range, wherever the gap is. -/
theorem slice_eq (h : b.WellFormed) (start stop : Nat) :
    b.slice start stop = (b.contents.take stop).drop start := by
  obtain ⟨⟨g, hg, hr⟩, hs, he⟩ := exists_runs h
  have hend : b.gapEnd = (b.front ++ g).length := by rw [List.length_append, he, hg]
  -- a range after the gap, counted from the end of the gap
  have hafter (i j : Nat) :
      (b.region.toList.take (b.gapEnd + j)).drop (b.gapEnd + i) = (b.back.take j).drop i := by
    rw [hr, hend, List.take_length_add_append, List.drop_length_add_append]
  simp only [slice]
  split
  · next hbefore =>
    rw [toList_region_extract, hr, List.append_assoc, contents,
      List.take_append_of_le_length (by omega), List.take_append_of_le_length (by omega)]
  · next hbefore =>
    have htake : b.contents.take stop = b.front ++ b.back.take (stop - b.gapStart) := by
      rw [contents, List.take_append, List.take_of_length_le (by omega), hs]
    split
    · next hpast =>
      rw [toList_region_extract, hafter, htake, List.drop_append,
        List.drop_of_length_le (l := b.front) (by omega), List.nil_append, hs]
    · next hpast =>
      have hsecond := hafter 0 (stop - b.gapStart)
      rw [Nat.add_zero, List.drop_zero] at hsecond
      rw [toList_region_extract, toList_region_extract, ← front_eq_take, hsecond, htake,
        List.drop_append_of_le_length (by omega)]

/-- A copy of a range is refused for its bounds or by memory, or it is the text of that range. -/
theorem extract_cases (mem : Memory) (h : b.WellFormed) (start stop : Nat) :
    (∃ e, b.extract mem start stop = .error e) ∨
    (start ≤ stop ∧ stop ≤ b.length ∧
      b.extract mem start stop = .ok ((b.contents.take stop).drop start)) := by
  unfold extract checkRange
  split
  · next e _ => exact .inl ⟨e, rfl⟩
  · next hrange =>
    split at hrange
    · cases hrange
    · next hbounds =>
      split
      · rw [slice_eq h]
        exact .inr ⟨by omega, by omega, rfl⟩
      · exact .inl ⟨_, rfl⟩

end TextStore.GapBuffer
