import TextStore.Proofs.Gap.Reads
import TextStore.Proofs.Gap.Refinement

/-!
# Reading tells nothing but the text

A buffer is read in three ways: byte by byte through the index of a position in the region, range by
range around the gap, and as its two runs. All of them answer from one list of bytes.

* `byteOf`, `rangeOf` : what a list of bytes answers for a position and for a range;
* `Copied` : what a copy into a destination answers and leaves there. It says so completely
  (`Copied.unique`);
* `ReadsAs b t` : every way of reading `b` answers from `t`. A well-formed buffer reads as its
  contents (`reads_contents`);
* `Alike` : no read tells two buffers apart. Buffers that read as the same text are alike;
* `reads_as_text` : the two together, for buffers made and edited in any way.
-/

namespace TextStore

/-! ## Reading a list of bytes -/

/-- The byte of the text `t` at `pos`. -/
def byteOf (t : List UInt8) (pos : Nat) : Except BufferError UInt8 :=
  if t = [] then .error .empty
  else
    match t[pos]? with
    | none => .error (.invalidPosition pos t.length)
    | some byte => .ok byte

/-- The bytes of the text `t` in `[start, stop)`. -/
def rangeOf (t : List UInt8) (start stop : Nat) : Except BufferError (List UInt8) :=
  if start ≤ stop ∧ stop ≤ t.length then .ok ((t.take stop).drop start)
  else .error (.outOfBounds start stop t.length)

/-- The range `[start, stop)` of the text `t` was copied to the front of `dest`: the answer, and the
destination afterwards. -/
inductive Copied (t : List UInt8) (start stop : Nat) (dest : List UInt8) :
    Except BufferError Nat × List UInt8 → Prop
  | outside (hrange : ¬ (start ≤ stop ∧ stop ≤ t.length)) :
    Copied t start stop dest (.error (.outOfBounds start stop t.length), dest)
  | short (hrange : start ≤ stop ∧ stop ≤ t.length) (hshort : dest.length < stop - start) :
    Copied t start stop dest (.error (.outOfBounds 0 (stop - start) dest.length), dest)
  | whole {dest' : List UInt8} (hrange : start ≤ stop ∧ stop ≤ t.length)
    (hroom : stop - start ≤ dest.length) (hlength : dest'.length = dest.length)
    (hfront : dest'.take (stop - start) = (t.take stop).drop start)
    (hrest : dest'.drop (stop - start) = dest.drop (stop - start)) :
    Copied t start stop dest (.ok (stop - start), dest')

theorem Copied.unique {t dest : List UInt8} {start stop : Nat}
    {result result' : Except BufferError Nat × List UInt8} (h : Copied t start stop dest result)
    (h' : Copied t start stop dest result') : result = result' := by
  cases h with
  | outside hrange =>
    cases h' with
    | outside => rfl
    | short hrange' | whole hrange' => exact absurd hrange' hrange
  | short hrange hshort =>
    cases h' with
    | outside hrange' => exact absurd hrange hrange'
    | short => rfl
    | whole _ hroom => omega
  | @whole d hrange hroom hlength hfront hrest =>
    cases h' with
    | outside hrange' => exact absurd hrange hrange'
    | short _ hshort => omega
    | @whole d' _ _ _ hfront' hrest' =>
      have hdest : d = d' := by
        rw [← List.take_append_drop (stop - start) d, ← List.take_append_drop (stop - start) d',
          hfront, hrest, hfront', hrest']
      rw [hdest]

namespace GapBuffer

variable {b b' : GapBuffer}

/-! ## Reading a buffer -/

/-- Whichever way `b` is read, it answers from the bytes of `t`. -/
structure ReadsAs (b : GapBuffer) (t : List UInt8) : Prop where
  contents : b.contents = t
  /-- The two runs are the text before and after the place of the gap. -/
  runs : b.gapStart ≤ t.length ∧ b.front = t.take b.gapStart ∧ b.back = t.drop b.gapStart
  /-- One position after the other, the bytes are those of the text. -/
  bytes : (List.range b.length).map b.byteAt = t
  get : ∀ pos, b.get pos = byteOf t pos
  extract : ∀ mem start stop, mem.copy (stop - start) = true →
    b.extract mem start stop = rangeOf t start stop
  copyInto : ∀ start stop dest, Copied t start stop dest (b.copyInto start stop dest)
  copyAllInto : ∀ dest, Copied t 0 t.length dest (b.copyAllInto dest)

theorem bytes_eq (h : b.WellFormed) : (List.range b.length).map b.byteAt = b.contents := by
  apply List.ext_getElem?
  intro pos
  by_cases hpos : pos < b.length
  · rw [List.getElem?_map, List.getElem?_range hpos, getElem?_contents h hpos]
    rfl
  · rw [List.getElem?_eq_none (by simp; omega),
      List.getElem?_eq_none (by rw [length_contents h]; omega)]

theorem get_eq (h : b.WellFormed) (pos : Nat) : b.get pos = byteOf b.contents pos := by
  have hlen := length_contents h
  have hempty : b.isEmpty = true ↔ b.contents = [] := by
    rw [isEmpty, beq_iff_eq, ← hlen, List.length_eq_zero_iff]
  unfold get byteOf
  by_cases hnil : b.contents = []
  · rw [if_pos (hempty.2 hnil), if_pos hnil]
  · rw [if_neg fun hyes => hnil (hempty.1 hyes), if_neg hnil]
    by_cases hpos : pos < b.length
    · rw [if_neg (by omega), getElem?_contents h hpos]
    · rw [if_pos (by omega), List.getElem?_eq_none (by omega), hlen]

/-- A copy of a range is the range of the text, unless memory refuses the copy. -/
theorem extract_eq (mem : Memory) (h : b.WellFormed) (start stop : Nat) :
    b.extract mem start stop =
      (rangeOf b.contents start stop).bind fun part =>
        if mem.copy (stop - start) then .ok part else .error (.allocationFailed (stop - start)) := by
  unfold extract checkRange rangeOf
  rw [length_contents h, slice_eq h]
  by_cases hrange : start ≤ stop ∧ stop ≤ b.length
  · rw [if_neg (by omega), if_pos hrange]
    rfl
  · rw [if_pos (by omega), if_neg hrange]
    rfl

theorem copied_copyInto (h : b.WellFormed) (start stop : Nat) (dest : List UInt8) :
    Copied b.contents start stop dest (b.copyInto start stop dest) := by
  have hlen := length_contents h
  unfold copyInto checkRange
  rw [slice_eq h, ← hlen]
  by_cases hrange : start ≤ stop ∧ stop ≤ b.contents.length
  · have hpart : ((b.contents.take stop).drop start).length = stop - start := by
      rw [List.length_drop, List.length_take]
      omega
    rw [if_neg (by omega)]
    by_cases hshort : dest.length < stop - start
    · simp only [if_pos hshort]
      exact .short hrange hshort
    · simp only [if_neg hshort]
      refine .whole hrange (by omega) ?_ (List.take_left' hpart) (List.drop_left' hpart)
      rw [List.length_append, hpart, List.length_drop]
      omega
  · rw [if_pos (by omega)]
    exact .outside hrange

/-- A well-formed buffer reads as its contents, wherever the gap is. -/
theorem reads_contents (h : b.WellFormed) : b.ReadsAs b.contents where
  contents := rfl
  runs := by
    have hstart := (exists_runs h).gapStart
    refine ⟨?_, ?_, ?_⟩
    · rw [length_contents h]
      exact gapStart_le_length h
    · rw [contents, hstart, List.take_left]
    · rw [contents, hstart, List.drop_left]
  bytes := bytes_eq h
  get := get_eq h
  extract mem start stop hcopy := by
    rw [extract_eq mem h, hcopy]
    rcases rangeOf b.contents start stop with e | part <;> rfl
  copyInto := copied_copyInto h
  copyAllInto dest := by
    rw [length_contents h]
    exact copied_copyInto h 0 b.length dest

/-! ## Telling buffers apart -/

/-- No read tells the two buffers apart, whatever memory it finds. -/
structure Alike (b b' : GapBuffer) : Prop where
  contents : b.contents = b'.contents
  bytes : (List.range b.length).map b.byteAt = (List.range b'.length).map b'.byteAt
  get : b.get = b'.get
  extract : ∀ mem, b.extract mem = b'.extract mem
  copyInto : b.copyInto = b'.copyInto
  copyAllInto : b.copyAllInto = b'.copyAllInto

theorem alike_of_contents (h : b.WellFormed) (h' : b'.WellFormed)
    (hsame : b'.contents = b.contents) : b.Alike b' where
  contents := hsame.symm
  bytes := by rw [bytes_eq h, bytes_eq h', hsame]
  get := by
    funext pos
    rw [get_eq h, get_eq h', hsame]
  extract mem := by
    funext start stop
    rw [extract_eq mem h, extract_eq mem h', hsame]
  copyInto := by
    funext start stop dest
    have hcopied := copied_copyInto h' start stop dest
    rw [hsame] at hcopied
    exact (copied_copyInto h start stop dest).unique hcopied
  copyAllInto := by
    funext dest
    have hcopied := (reads_contents h').copyAllInto dest
    rw [hsame] at hcopied
    exact ((reads_contents h).copyAllInto dest).unique hcopied

/-- However a buffer was made and whatever was done to it since, every read answers from its
contents; so no read tells it from another buffer with the same contents. -/
theorem reads_as_text (hb : b.Reachable) :
    b.ReadsAs b.contents ∧
      ∀ b', b'.Reachable → b'.contents = b.contents → b.Alike b' :=
  ⟨reads_contents hb.wellFormed, fun _ hb' hsame =>
    alike_of_contents hb.wellFormed hb'.wellFormed hsame⟩

/-- The same text, typed from the front with the gap left inside it, and made at once. -/
theorem reads_as_text_twoGaps : ∃ b b' : GapBuffer,
    b.Reachable ∧ b'.Reachable ∧ b.gapStart = 1 ∧ b'.gapStart = 3 ∧
      b.extract .ample 0 2 = .ok [97, 120] ∧ b.Alike b' := by
  have hb : GapBuffer.Reachable _ :=
    ⟨.withCapacity 4, .ample, _, [(.ample, .insert 0 [97, 98]), (.ample, .insert 1 [120]),
      (.ample, .moveGap 1)], rfl, rfl⟩
  have hb' : GapBuffer.Reachable _ := ⟨.ofBytes [97, 120, 98], .ample, _, [], rfl, rfl⟩
  obtain ⟨hreads, halike⟩ := reads_as_text hb
  refine ⟨_, _, hb, hb', by decide +kernel, by decide +kernel, ?_, halike _ hb' (by decide +kernel)⟩
  exact (hreads.extract .ample 0 2 rfl).trans rfl

end GapBuffer

end TextStore
