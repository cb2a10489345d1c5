import TextStore.Gap.Lines
import TextStore.Proofs.Gap.Search

/-!
# Lines partition the positions of a text

The start of a line is found by a backward scan, its end by a forward search, its number by counting
over the positions before and the number of lines by counting over the whole text.

* `newlinesBefore t pos` : the newlines of `t` before `pos`, which number the lines;
* `LineAt t pos start stop` : the line of `t` that `pos` is on goes from `start` to `stop`. Positions
  with the same number are on the same line (`LineAt.same`), and after the end of a line that is not
  the last one the next line starts (`LineAt.next`);
* `startOfLine_spec`, `lineEnd_of_le`, `lineNumber_of_le` : the four functions in terms of the text;
* `Lined` : what they say together. `lines_partition` : so they do on every reachable buffer.
-/

namespace TextStore

open GapBuffer (newline)

variable {t : List UInt8} {pos pos' start stop start' stop' : Nat}

/-! ## Counting newlines -/

/-- The number of newlines of the text `t` before `pos`. -/
def newlinesBefore (t : List UInt8) (pos : Nat) : Nat := (t.take pos).count newline

theorem newlinesBefore_succ (t : List UInt8) (pos : Nat) :
    newlinesBefore t (pos + 1) = newlinesBefore t pos + if t[pos]? = some newline then 1 else 0 := by
  rw [newlinesBefore, List.take_add_one, List.count_append, newlinesBefore]
  rcases t[pos]? with _ | byte
  · simp
  · simp [List.count_singleton]

theorem newlinesBefore_mono (t : List UInt8) (h : pos ≤ pos') :
    newlinesBefore t pos ≤ newlinesBefore t pos' :=
  (List.take_sublist_take_left h).count_le newline

/-- A newline makes the difference between the positions up to it and those after it. -/
theorem newlinesBefore_lt {i : Nat} (hi : t[i]? = some newline) (hpos : pos ≤ i) (hpos' : i < pos') :
    newlinesBefore t pos < newlinesBefore t pos' := by
  have hstep := newlinesBefore_succ t i
  rw [if_pos hi] at hstep
  have hbefore := newlinesBefore_mono t hpos
  have hafter := newlinesBefore_mono t (show i + 1 ≤ pos' by omega)
  omega

theorem newlinesBefore_length (t : List UInt8) : newlinesBefore t t.length = t.count newline := by
  rw [newlinesBefore, List.take_length]

/-- The number goes up by one at a time, so it leaves none out. -/
theorem exists_newlinesBefore {k : Nat} (hk : k ≤ t.count newline) :
    ∃ pos ≤ t.length, newlinesBefore t pos = k := by
  induction t generalizing k with
  | nil => exact ⟨0, Nat.le_refl _, (Nat.le_zero.1 hk).symm⟩
  | cons byte rest ih =>
    by_cases hbyte : byte = newline
    · subst hbyte
      rw [List.count_cons_self] at hk
      cases k with
      | zero => exact ⟨0, Nat.zero_le _, rfl⟩
      | succ k =>
        obtain ⟨pos, hpos, hcount⟩ := ih (Nat.le_of_succ_le_succ hk)
        refine ⟨pos + 1, Nat.succ_le_succ hpos, ?_⟩
        rw [newlinesBefore, List.take_succ_cons, List.count_cons_self]
        exact congrArg (· + 1) hcount
    · rw [List.count_cons_of_ne hbyte] at hk
      obtain ⟨pos, hpos, hcount⟩ := ih hk
      refine ⟨pos + 1, Nat.succ_le_succ hpos, ?_⟩
      rw [newlinesBefore, List.take_succ_cons, List.count_cons_of_ne hbyte]
      exact hcount

/-! ## Lines -/

/-- The line that `pos` is on goes from `start` to `stop`. -/
structure LineAt (t : List UInt8) (pos start stop : Nat) : Prop where
  start_le : start ≤ pos
  le_stop : pos ≤ stop
  /-- It starts with the text or after a newline. -/
  opens : start = 0 ∨ ∃ i, start = i + 1 ∧ t[i]? = some newline
  /-- It ends with the text or at a newline. -/
  ends : stop = t.length ∨ t[stop]? = some newline
  unbroken : newline ∉ (t.take stop).drop start

theorem not_mem_range_iff :
    newline ∉ (t.take stop).drop start ↔
      ∀ i, start ≤ i → i < stop → t[i]? ≠ some newline := by
  have hget (i : Nat) : ((t.take stop).drop start)[i]? =
      if start + i < stop then t[start + i]? else none := by
    rw [List.getElem?_drop, List.getElem?_take]
  constructor
  · intro hnot i hstart hstop hi
    apply hnot
    rw [List.mem_iff_getElem?]
    refine ⟨i - start, ?_⟩
    rw [hget, Nat.add_sub_cancel' hstart, if_pos hstop, hi]
  · intro hnone hmem
    obtain ⟨i, hi⟩ := List.mem_iff_getElem?.1 hmem
    rw [hget] at hi
    split at hi
    · next hstop => exact hnone (start + i) (Nat.le_add_right _ _) hstop hi
    · cases hi

namespace LineAt

theorem stop_le (h : LineAt t pos start stop) : stop ≤ t.length := by
  rcases h.ends with hend | hnewline
  · exact Nat.le_of_eq hend
  · exact Nat.le_of_lt (List.getElem?_eq_some_iff.1 hnewline).1

/-- Both ends of a line have the number of the position. -/
theorem number (h : LineAt t pos start stop) :
    newlinesBefore t start = newlinesBefore t pos ∧
      newlinesBefore t stop = newlinesBefore t pos := by
  have hsplit : t.take stop = t.take start ++ (t.take stop).drop start := by
    conv => lhs; rw [← List.take_append_drop start (t.take stop)]
    rw [List.take_take, Nat.min_eq_left (Nat.le_trans h.start_le h.le_stop)]
  have hends : newlinesBefore t stop = newlinesBefore t start := by
    rw [newlinesBefore, hsplit, List.count_append, List.count_eq_zero.2 h.unbroken, Nat.add_zero]
    rfl
  have hlow := newlinesBefore_mono t h.start_le
  have hhigh := newlinesBefore_mono t h.le_stop
  omega

/-- A line that starts later has a greater number. -/
theorem lt_of_start_lt (h : LineAt t pos start stop) (h' : LineAt t pos' start' stop')
    (hlt : start < start') : newlinesBefore t pos < newlinesBefore t pos' := by
  rcases h'.opens with hzero | ⟨i, hi, hnewline⟩
  · omega
  · have hstarts : newlinesBefore t start < newlinesBefore t start' :=
      newlinesBefore_lt hnewline (by omega) (by omega)
    rwa [h.number.1, h'.number.1] at hstarts

/-- A line that ends later has a greater number. -/
theorem lt_of_stop_lt (h : LineAt t pos start stop) (h' : LineAt t pos' start' stop')
    (hlt : stop < stop') : newlinesBefore t pos < newlinesBefore t pos' := by
  have hle := h'.stop_le
  rcases h.ends with hend | hnewline
  · omega
  · have hstops : newlinesBefore t stop < newlinesBefore t stop' :=
      newlinesBefore_lt hnewline (Nat.le_refl _) hlt
    rwa [h.number.2, h'.number.2] at hstops

/-- The number, the start and the end of a line determine each other. -/
theorem same (h : LineAt t pos start stop) (h' : LineAt t pos' start' stop') :
    (newlinesBefore t pos = newlinesBefore t pos' ↔ start = start') ∧
      (start = start' ↔ stop = stop') := by
  have hnumber := h.number
  have hnumber' := h'.number
  have hstart : newlinesBefore t pos = newlinesBefore t pos' ↔ start = start' := by
    constructor
    · intro heq
      rcases Nat.lt_trichotomy start start' with hlt | hsame | hgt
      · have := h.lt_of_start_lt h' hlt
        omega
      · exact hsame
      · have := h'.lt_of_start_lt h hgt
        omega
    · rintro rfl
      omega
  have hstop : newlinesBefore t pos = newlinesBefore t pos' ↔ stop = stop' := by
    constructor
    · intro heq
      rcases Nat.lt_trichotomy stop stop' with hlt | hsame | hgt
      · have := h.lt_of_stop_lt h' hlt
        omega
      · exact hsame
      · have := h'.lt_of_stop_lt h hgt
        omega
    · rintro rfl
      omega
  exact ⟨hstart, hstart.symm.trans hstop⟩

/-- After the end of a line that does not end the text, the next line starts. -/
theorem next (h : LineAt t pos start stop) (hlt : stop < t.length)
    (h' : LineAt t (stop + 1) start' stop') :
    start' = stop + 1 ∧ newlinesBefore t (stop + 1) = newlinesBefore t pos + 1 := by
  have hnewline : t[stop]? = some newline := h.ends.resolve_left (by omega)
  have hle := h'.start_le
  have hstop := h'.le_stop
  constructor
  · by_cases hinside : start' ≤ stop
    · -- the newline at `stop` would be inside the line
      exact absurd hnewline (not_mem_range_iff.1 h'.unbroken stop hinside (by omega))
    · omega
  · rw [newlinesBefore_succ, if_pos hnewline, h.number.2]

end LineAt

namespace GapBuffer

variable {b : GapBuffer}

/-! ## The line functions -/

theorem checkPosition_of_le {α : Type} (f : Unit → α) (hpos : pos ≤ b.length) :
    (b.checkPosition pos).map f = .ok (f ()) := by
  rw [checkPosition, if_neg (by omega)]
  rfl

theorem checkPosition_of_lt {α : Type} (f : Unit → α) (hpos : b.length < pos) :
    (b.checkPosition pos).map f = .error (.invalidPosition pos b.length) := by
  rw [checkPosition, if_pos hpos]
  rfl

theorem startOfLine_spec (h : b.WellFormed) (hpos : pos ≤ b.length) :
    b.startOfLine pos ≤ pos ∧
      (b.startOfLine pos = 0 ∨
        ∃ i, b.startOfLine pos = i + 1 ∧ b.contents[i]? = some newline) ∧
      ∀ i, b.startOfLine pos ≤ i → i < pos → b.contents[i]? ≠ some newline := by
  induction pos with
  | zero => exact ⟨Nat.le_refl _, .inl rfl, fun i _ hlt => by omega⟩
  | succ pos ih =>
    have hbyte := byteAt_eq_iff h (show pos < b.length by omega) newline
    obtain ⟨hle, hopens, hbefore⟩ := ih (by omega)
    rw [startOfLine]
    split
    · next hnewline =>
      exact ⟨Nat.le_refl _, .inr ⟨pos, rfl, hbyte.1 hnewline⟩, fun i hi hlt => by omega⟩
    · next hother =>
      refine ⟨by omega, hopens, fun i hi hlt => ?_⟩
      by_cases hlast : i = pos
      · rw [hlast]
        exact fun hnewline => hother (hbyte.2 hnewline)
      · exact hbefore i hi (by omega)

theorem lineEnd_of_le (h : b.WellFormed) (hpos : pos ≤ b.length) :
    ∃ stop, b.lineEnd pos = .ok stop ∧ pos ≤ stop ∧
      (stop = b.contents.length ∨ b.contents[stop]? = some newline) ∧
      ∀ i, pos ≤ i → i < stop → b.contents[i]? ≠ some newline := by
  refine ⟨(b.findByte pos newline).getD b.length, checkPosition_of_le _ hpos, ?_⟩
  rcases hfound : b.findByte pos newline with _ | stop
  · have hnone := firstIn_eq_none.1 hfound
    rw [Option.getD_none]
    refine ⟨hpos, .inl (length_contents h).symm, fun i hi hlt hnewline => ?_⟩
    rw [← byteAt_eq_iff h hlt newline, hnone i hi (by omega)] at hnewline
    cases hnewline
  · obtain ⟨hle, hlt, hstop, hbefore⟩ := firstIn_eq_some.1 hfound
    have hin : stop < b.length := by omega
    rw [Option.getD_some]
    refine ⟨hle, .inr ((byteAt_eq_iff h hin newline).1 hstop), fun i hi hi' hnewline => ?_⟩
    rw [← byteAt_eq_iff h (Nat.lt_trans hi' hin) newline, hbefore i hi hi'] at hnewline
    cases hnewline

theorem lineNumber_of_le (h : b.WellFormed) (hpos : pos ≤ b.length) :
    b.lineNumber pos = .ok (newlinesBefore b.contents pos) := by
  have hcount : ((List.range pos).countP fun i => b.byteAt i == newline) =
      newlinesBefore b.contents pos := by
    induction pos with
    | zero => rfl
    | succ pos ih =>
      have hbyte := byteAt_eq_iff h (show pos < b.length by omega) newline
      rw [List.range_succ, List.countP_append, List.countP_singleton, ih (by omega),
        newlinesBefore_succ]
      simp only [hbyte]
  rw [lineNumber, checkPosition_of_le _ hpos, hcount]

theorem lineCount_eq (b : GapBuffer) :
    b.lineCount = newlinesBefore b.contents b.contents.length + 1 := by
  rw [newlinesBefore_length]
  rfl

/-- A position of the text is on the line that the functions find. -/
theorem exists_lineAt (h : b.WellFormed) (hpos : pos ≤ b.length) :
    ∃ start stop, b.lineStart pos = .ok start ∧ b.lineEnd pos = .ok stop ∧
      LineAt b.contents pos start stop := by
  obtain ⟨hle, hopens, hbefore⟩ := startOfLine_spec h hpos
  obtain ⟨stop, hend, hstop, hends, hafter⟩ := lineEnd_of_le h hpos
  refine ⟨_, stop, checkPosition_of_le _ hpos, hend, hle, hstop, hopens, hends, ?_⟩
  refine not_mem_range_iff.2 fun i hi hlt => ?_
  by_cases hside : i < pos
  · exact hbefore i hi hside
  · exact hafter i (by omega) hlt

/-! ## One partition -/

/-- The line functions of `b` describe one partition of the positions of its text. -/
structure Lined (b : GapBuffer) : Prop where
  /-- A position past the end is on no line. -/
  outside : ∀ pos, b.contents.length < pos →
    b.lineStart pos = .error (.invalidPosition pos b.contents.length) ∧
    b.lineEnd pos = .error (.invalidPosition pos b.contents.length) ∧
    b.lineNumber pos = .error (.invalidPosition pos b.contents.length)
  /-- Every other position is on a line, and its number counts the newlines before it. -/
  line : ∀ pos, pos ≤ b.contents.length →
    ∃ start stop, b.lineStart pos = .ok start ∧ b.lineEnd pos = .ok stop ∧
      b.lineNumber pos = .ok (newlinesBefore b.contents pos) ∧ LineAt b.contents pos start stop
  count : ∃ last, b.lineNumber b.contents.length = .ok last ∧ b.lineCount = last + 1
  same : ∀ pos pos', pos ≤ b.contents.length → pos' ≤ b.contents.length →
    (b.lineNumber pos = b.lineNumber pos' ↔ b.lineStart pos = b.lineStart pos') ∧
      (b.lineStart pos = b.lineStart pos' ↔ b.lineEnd pos = b.lineEnd pos')
  monotone : ∀ pos pos' number number', pos ≤ pos' → b.lineNumber pos = .ok number →
    b.lineNumber pos' = .ok number' → number ≤ number'
  onto : ∀ number < b.lineCount, ∃ pos ≤ b.contents.length, b.lineNumber pos = .ok number
  /-- After the end of a line the next one starts. -/
  next : ∀ pos stop number, b.lineEnd pos = .ok stop → b.lineNumber pos = .ok number →
    stop < b.contents.length →
    b.lineStart (stop + 1) = .ok (stop + 1) ∧ b.lineNumber (stop + 1) = .ok (number + 1)

/-- An answer is given only at a position of the text. -/
theorem le_of_checkPosition {α : Type} {f : Unit → α} {answer : α}
    (hanswer : (b.checkPosition pos).map f = .ok answer) : pos ≤ b.length := by
  by_cases hpos : pos ≤ b.length
  · exact hpos
  · rw [checkPosition_of_lt f (Nat.not_le.1 hpos)] at hanswer
    cases hanswer

theorem lined (h : b.WellFormed) : b.Lined := by
  have hlen := length_contents h
  constructor
  case outside =>
    intro pos hpos
    rw [hlen] at hpos ⊢
    exact ⟨checkPosition_of_lt _ hpos, checkPosition_of_lt _ hpos, checkPosition_of_lt _ hpos⟩
  case line =>
    intro pos hpos
    rw [hlen] at hpos
    obtain ⟨start, stop, hstart, hstop, hline⟩ := exists_lineAt h hpos
    exact ⟨start, stop, hstart, hstop, lineNumber_of_le h hpos, hline⟩
  case count =>
    exact ⟨_, lineNumber_of_le h (Nat.le_of_eq hlen), b.lineCount_eq⟩
  case same =>
    intro pos pos' hpos hpos'
    rw [hlen] at hpos hpos'
    obtain ⟨start, stop, hstart, hstop, hline⟩ := exists_lineAt h hpos
    obtain ⟨start', stop', hstart', hstop', hline'⟩ := exists_lineAt h hpos'
    rw [lineNumber_of_le h hpos, lineNumber_of_le h hpos', hstart, hstart', hstop, hstop',
      Except.ok.injEq, Except.ok.injEq, Except.ok.injEq]
    exact hline.same hline'
  case monotone =>
    intro pos pos' number number' hle hnumber hnumber'
    have hpos' : pos' ≤ b.length := le_of_checkPosition hnumber'
    rw [lineNumber_of_le h (by omega), Except.ok.injEq] at hnumber
    rw [lineNumber_of_le h hpos', Except.ok.injEq] at hnumber'
    rw [← hnumber, ← hnumber']
    exact newlinesBefore_mono _ hle
  case onto =>
    intro number hlt
    rw [lineCount_eq, newlinesBefore_length] at hlt
    obtain ⟨pos, hpos, hnumber⟩ := exists_newlinesBefore (Nat.le_of_lt_succ hlt)
    refine ⟨pos, hpos, ?_⟩
    rw [lineNumber_of_le h (by omega), hnumber]
  case next =>
    intro pos stop number hend hnumber hlt
    have hpos : pos ≤ b.length := le_of_checkPosition hend
    obtain ⟨start, stop₁, -, hend₁, hline⟩ := exists_lineAt h hpos
    obtain ⟨start', stop', hstart', -, hline'⟩ := exists_lineAt h (show stop + 1 ≤ b.length by omega)
    rw [lineNumber_of_le h hpos, Except.ok.injEq] at hnumber
    rw [hend, Except.ok.injEq] at hend₁
    subst hend₁
    obtain ⟨hstart, hcount⟩ := hline.next hlt hline'
    rw [hstart', hstart, lineNumber_of_le h (by omega), hcount, hnumber]
    exact ⟨rfl, rfl⟩

/-- However a buffer was made and edited, and wherever its gap is, its line functions describe one
partition of the positions of its text. -/
theorem lines_partition (hb : b.Reachable) : b.Lined := lined hb.wellFormed

/-- An empty line in the middle and one at the end, with the gap inside the text. -/
theorem lines_partition_emptyLines : ∃ b : GapBuffer, b.Reachable ∧
    b.contents = [97, 10, 10, 98, 10] ∧ b.gapStart = 2 ∧ b.lineCount = 4 ∧
      b.lineStart 2 = .ok 2 ∧ b.lineNumber 2 = .ok 1 ∧
      ∃ pos ≤ b.contents.length, b.lineNumber pos = .ok 3 := by
  have hb : GapBuffer.Reachable _ :=
    ⟨.withCapacity 6, .ample, _, [(.ample, .insert 0 [97, 10, 10, 98, 10]), (.ample, .moveGap 2)],
      rfl, rfl⟩
  have hlined := lines_partition hb
  obtain ⟨hstart, hnumber⟩ := hlined.next 0 1 0 (by rfl) (by rfl) (by decide +kernel)
  exact ⟨_, hb, by decide +kernel, by decide +kernel, by decide +kernel, hstart, hnumber,
    hlined.onto 3 (by decide +kernel)⟩

end GapBuffer

end TextStore
