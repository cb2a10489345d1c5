import TextStore.Gap.Lines
import TextStore.Proofs.Gap.Contents

/-!
# Gap buffer operations that check every access

The operations of a gap buffer once more, each of them stopping with `none` at the first
subtraction that would be negative, the first index outside the region and the first range that
is reversed, reaches past the region or is not as long as what is copied into it. Growth is written
as two copies into a zeroed region.

On a well-formed buffer no check fails, so each operation agrees with its checked form:

* `moveGap?_eq`, `reserve?_eq`, `insert?_eq`, `delete?_eq`, `deleteByte?_eq`, `clear?_eq` for those
  that change the buffer;
* `readsInRange` for those that only read it.
-/

namespace TextStore

/-- `m - n`, where that is not negative. -/
def sub? (m n : Nat) : Option Nat := if n ≤ m then some (m - n) else none

theorem sub?_of_le {m n : Nat} (h : n ≤ m) : sub? m n = some (m - n) := if_pos h

namespace Region

/-- The bytes of `[start, stop)`, where that is a range of the region. -/
def range? (r : Region) (start stop : Nat) : Option Region :=
  if start ≤ stop ∧ stop ≤ r.size then some (r.extract start stop) else none

/-- Overwrites the bytes of `[start, stop)`, where that is a range as long as `bytes`. -/
def put? (r : Region) (start stop : Nat) (bytes : Array UInt8) : Option Region :=
  if start ≤ stop ∧ stop ≤ r.size ∧ bytes.size = stop - start then some (r.write start bytes)
  else none

/-- Copies the bytes of `[start, stop)` to `dest`, where both places are ranges of the region. -/
def slide? (r : Region) (start stop dest : Nat) : Option Region := do
  let block ← r.range? start stop
  r.put? dest (dest + block.size) block

theorem range?_of_le {r : Region} {start stop : Nat} (h : start ≤ stop) (hs : stop ≤ r.size) :
    r.range? start stop = some (r.extract start stop) := if_pos ⟨h, hs⟩

theorem put?_of_le {r : Region} {start stop : Nat} {bytes : Array UInt8} (h : start ≤ stop)
    (hs : stop ≤ r.size) (hb : bytes.size = stop - start) :
    r.put? start stop bytes = some (r.write start bytes) := if_pos ⟨h, hs, hb⟩

theorem slide?_of_le {r : Region} {start stop dest : Nat} (h : start ≤ stop) (hs : stop ≤ r.size)
    (hd : dest + (stop - start) ≤ r.size) :
    r.slide? start stop dest = some (r.slide start stop dest) := by
  have hsize : (r.extract start stop).size = stop - start := by
    rw [Array.size_extract]
    omega
  rw [slide?, range?_of_le h hs, Option.bind_eq_bind, Option.bind_some,
    put?_of_le (Nat.le_add_right _ _) (by omega) (by omega), slide]

end Region

namespace GapBuffer

variable {b : GapBuffer}

/-! ## Moving and growing -/

def gapLength? (b : GapBuffer) : Option Nat := sub? b.gapEnd b.gapStart

def length? (b : GapBuffer) : Option Nat := do
  let gap ← b.gapLength?
  sub? b.capacity gap

def placeGap? (b : GapBuffer) (pos : Nat) : Option GapBuffer :=
  if pos < b.gapStart then do
    let distance ← sub? b.gapStart pos
    let gapEnd ← sub? b.gapEnd distance
    let region ← b.region.slide? pos b.gapStart gapEnd
    some { b with
      region, gapStart := pos, gapEnd
      counters := { b.counters with gapMoves := b.counters.gapMoves + 1 } }
  else if b.gapStart < pos then do
    let distance ← sub? pos b.gapStart
    let region ← b.region.slide? b.gapEnd (b.gapEnd + distance) b.gapStart
    some { b with
      region, gapStart := b.gapStart + distance, gapEnd := b.gapEnd + distance
      counters := { b.counters with gapMoves := b.counters.gapMoves + 1 } }
  else some b

def moveGap? (b : GapBuffer) (pos : Nat) : Option (Except BufferError Unit × GapBuffer) := do
  let length ← b.length?
  if length < pos then some (.error (.invalidPosition pos length), b)
  else do
    let placed ← b.placeGap? pos
    some (.ok (), placed)

/-- Replaces the region by one of `size` bytes, into which the two runs of text are copied. -/
def grow? (b : GapBuffer) (size : Nat) : Option GapBuffer := do
  let tail ← sub? b.capacity b.gapEnd
  let gapEnd ← sub? size tail
  let front ← b.region.range? 0 b.gapStart
  let half ← (Region.zeroed size).put? 0 b.gapStart front
  let back ← b.region.range? b.gapEnd b.capacity
  let region ← half.put? gapEnd size back
  some { b with
    region, gapEnd
    counters :=
      { b.counters with
        growths := b.counters.growths + 1
        maxCapacity := max b.counters.maxCapacity size } }

def reserve? (mem : Memory) (b : GapBuffer) (needed : Nat) :
    Option (Except BufferError Unit × GapBuffer) :=
  if needed ≤ b.capacity then some (.ok (), b)
  else
    match grownCapacity? b.capacity needed with
    | none => some (.error (.allocationFailed needed), b)
    | some size =>
      if mem.region size then do
        let grown ← b.grow? size
        some (.ok (), grown)
      else some (.error (.allocationFailed size), b)

def makeRoom? (mem : Memory) (b : GapBuffer) (count : Nat) :
    Option (Except BufferError Unit × GapBuffer) := do
  let gap ← b.gapLength?
  let length ← b.length?
  if count ≤ gap then some (.ok (), b)
  else if wordRange ≤ length + count then some (.error (.allocationFailed count), b)
  else b.reserve? mem (length + count)

theorem gapLength?_eq (h : b.WellFormed) : b.gapLength? = some b.gapLength := sub?_of_le h.1

theorem length?_eq (h : b.WellFormed) : b.length? = some b.length := by
  have hle : b.gapLength ≤ b.capacity := by
    have := length_add_gapLength h
    omega
  rw [length?, gapLength?_eq h, Option.bind_eq_bind, Option.bind_some, sub?_of_le hle, length]

theorem placeGap?_eq (h : b.WellFormed) {pos : Nat} (hpos : pos ≤ b.length) :
    b.placeGap? pos = some (b.placeGap pos) := by
  have hroom := length_add_gapLength h
  obtain ⟨hgap, hend⟩ := h
  simp only [gapLength, capacity] at hroom
  unfold placeGap? placeGap
  split
  · next hlt =>
    rw [sub?_of_le (by omega), Option.bind_eq_bind, Option.bind_some, sub?_of_le (by omega),
      Option.bind_eq_bind, Option.bind_some, Region.slide?_of_le (by omega) (by omega) (by omega)]
    rfl
  · split
    · next hgt =>
      rw [sub?_of_le (by omega), Option.bind_eq_bind, Option.bind_some,
        Region.slide?_of_le (by omega) (by omega) (by omega)]
      rfl
    · rfl

theorem moveGap?_eq (h : b.WellFormed) (pos : Nat) : b.moveGap? pos = some (b.moveGap pos) := by
  rw [moveGap?, length?_eq h, Option.bind_eq_bind, Option.bind_some]
  unfold moveGap
  split
  · rfl
  · next hge =>
    rw [placeGap?_eq h (Nat.not_lt.1 hge)]
    rfl

/-- Two copies into a zeroed region make the region that growth asks for. -/
theorem put?_put?_zeroed {r : Region} {front back size : Nat} (hfront : front ≤ back)
    (hback : back ≤ r.size) (hsize : r.size ≤ size) :
    (do
      let half ← (Region.zeroed size).put? 0 front (r.extract 0 front)
      half.put? (size - (r.size - back)) size (r.extract back r.size)) =
      some (r.resplit front back size) := by
  have hhead : (r.extract 0 front).size = front := by
    rw [Array.size_extract]; omega
  have htail : (r.extract back r.size).size = r.size - back := by
    rw [Array.size_extract]; omega
  have hzero : (Region.zeroed size).size = size := Array.size_replicate
  have hhalf : ((Region.zeroed size).write 0 (r.extract 0 front)).toList =
      (r.extract 0 front).toList ++ List.replicate (size - front) 0 := by
    rw [Region.toList_write, hhead, Region.zeroed, Array.toList_replicate, List.take_zero,
      List.nil_append, List.drop_replicate, Nat.zero_add]
  have hhalfSize : ((Region.zeroed size).write 0 (r.extract 0 front)).size = size := by
    rw [← Array.length_toList, hhalf, List.length_append, List.length_replicate,
      Array.length_toList, hhead]
    omega
  rw [Region.put?_of_le (Nat.zero_le _) (by omega) (by omega), Option.bind_eq_bind,
    Option.bind_some, Region.put?_of_le (by omega) (by omega) (by omega)]
  refine congrArg some (Array.toList_inj.1 ?_)
  rw [Region.toList_write, hhalf, htail, Region.toList_resplit, List.take_append,
    List.drop_of_length_le (l := _ ++ _) (by
      rw [List.length_append, List.length_replicate, Array.length_toList, hhead]; omega),
    List.append_nil, Array.length_toList, hhead, List.take_replicate, Nat.min_eq_left (by omega),
    List.take_of_length_le (l := (r.extract 0 front).toList) (by
      rw [Array.length_toList, hhead]; omega)]
  simp only [Array.toList_extract, List.extract_eq_take_drop, List.drop_zero, Nat.sub_zero]
  rw [List.take_of_length_le (l := r.toList.drop back) (by simp)]

theorem grow?_eq (h : b.WellFormed) {size : Nat} (hsize : b.capacity ≤ size) :
    b.grow? size = some (b.grow size) := by
  obtain ⟨hgap, hend⟩ := h
  simp only [capacity] at hsize
  have hput := put?_put?_zeroed hgap hend hsize
  rw [Option.bind_eq_bind] at hput
  obtain ⟨half, hhalf, hput⟩ := Option.bind_eq_some_iff.1 hput
  simp only [grow?, capacity, Option.bind_eq_bind]
  rw [sub?_of_le hend, Option.bind_some, sub?_of_le (by omega), Option.bind_some,
    Region.range?_of_le (Nat.zero_le _) (by omega), Option.bind_some, hhalf, Option.bind_some,
    Region.range?_of_le hend (Nat.le_refl _), Option.bind_some, hput]
  rfl

theorem reserve?_eq (mem : Memory) (h : b.WellFormed) (needed : Nat) :
    b.reserve? mem needed = some (b.reserve mem needed) := by
  unfold reserve? reserve
  split
  · rfl
  · next hgt =>
    cases hgrown : grownCapacity? b.capacity needed with
    | none => rfl
    | some size =>
      have hsize := (le_of_grownCapacity? hgrown).1
      simp only
      split
      · rw [grow?_eq h (by omega)]
        rfl
      · rfl

theorem makeRoom?_eq (mem : Memory) (h : b.WellFormed) (count : Nat) :
    b.makeRoom? mem count = some (b.makeRoom mem count) := by
  rw [makeRoom?, gapLength?_eq h, Option.bind_eq_bind, Option.bind_some, length?_eq h,
    Option.bind_some]
  unfold makeRoom
  split
  · rfl
  · split
    · rfl
    · exact reserve?_eq mem h _

/-! ## Editing -/

def fill? (b : GapBuffer) (bytes : List UInt8) : Option GapBuffer := do
  let region ← b.region.put? b.gapStart (b.gapStart + bytes.length) bytes.toArray
  let filled : GapBuffer :=
    { b with region, gapStart := b.gapStart + bytes.length, modified := true }
  let length ← filled.length?
  some { filled with
    counters :=
      { b.counters with
        inserts := b.counters.inserts + 1
        maxLength := max b.counters.maxLength length } }

def insert? (mem : Memory) (b : GapBuffer) (pos : Nat) (bytes : List UInt8) :
    Option (Except BufferError Unit × GapBuffer) := do
  let length ← b.length?
  if length < pos then some (.error (.invalidPosition pos length), b)
  else if b.readOnly then some (.error .readOnly, b)
  else if bytes.isEmpty then some (.ok (), b)
  else do
    let room ← b.makeRoom? mem bytes.length
    match room with
    | (.error e, b') => some (.error e, b')
    | (.ok (), b') => do
      let placed ← b'.placeGap? pos
      let filled ← placed.fill? bytes
      some (.ok (), filled)

def delete? (b : GapBuffer) (start stop : Nat) : Option (Except BufferError Unit × GapBuffer) := do
  let length ← b.length?
  if stop < start ∨ length < stop then some (.error (.outOfBounds start stop length), b)
  else if b.readOnly then some (.error .readOnly, b)
  else if start = stop then some (.ok (), b)
  else do
    let placed ← b.placeGap? start
    let count ← sub? stop start
    some (.ok (), placed.absorb count)

def deleteByte? (b : GapBuffer) (pos : Nat) : Option (Except BufferError Unit × GapBuffer) := do
  let length ← b.length?
  if length = 0 then some (.error (if b.readOnly then .readOnly else .empty), b)
  else b.delete? pos (pos + 1)

def clear? (b : GapBuffer) : Option (Except BufferError Unit × GapBuffer) := do
  let length ← b.length?
  b.delete? 0 length

theorem fill?_eq {f k : List UInt8} {gap : Nat} (h : b.Runs f gap k) {bytes : List UInt8}
    (hfits : bytes.length ≤ gap) : b.fill? bytes = some (b.fill bytes) := by
  have hwf := (fill_runs h hfits).wellFormed
  have hcap := h.capacity
  rw [capacity] at hcap
  have hfilled : length? { b with
      region := b.region.write b.gapStart bytes.toArray
      gapStart := b.gapStart + bytes.length
      modified := true } = some (b.fill bytes).length :=
    length?_eq (b := b.fill bytes) hwf
  rw [fill?, Region.put?_of_le (Nat.le_add_right _ _) (by rw [h.gapStart]; omega) (by simp),
    Option.bind_eq_bind, Option.bind_some]
  simp only [hfilled]
  rfl

theorem insert?_eq (mem : Memory) (h : b.WellFormed) (pos : Nat) (bytes : List UInt8) :
    b.insert? mem pos bytes = some (b.insert mem pos bytes) := by
  rw [insert?, length?_eq h, Option.bind_eq_bind, Option.bind_some]
  unfold insert
  split
  · rfl
  next hge =>
  have hpos : pos ≤ b.length := Nat.not_lt.1 hge
  split
  · rfl
  split
  · rfl
  rw [makeRoom?_eq mem h, Option.bind_eq_bind, Option.bind_some]
  rcases makeRoom_cases mem h bytes.length with ⟨-, gap, b', heq, hruns, hgap, -⟩ | ⟨-, n, heq⟩
  · have hpos' : pos ≤ b'.length := by
      rw [hruns.length, ← (exists_runs h).length]
      exact hpos
    have hplaced := placeGap_runs hruns.wellFormed hpos'
    rw [hruns.gapLength] at hplaced
    rw [heq]
    simp only
    rw [placeGap?_eq hruns.wellFormed hpos', Option.bind_eq_bind, Option.bind_some,
      fill?_eq hplaced hgap]
    rfl
  · rw [heq]

theorem delete?_eq (h : b.WellFormed) (start stop : Nat) :
    b.delete? start stop = some (b.delete start stop) := by
  rw [delete?, length?_eq h, Option.bind_eq_bind, Option.bind_some]
  unfold delete
  split
  · rfl
  next hbad =>
  split
  · rfl
  split
  · rfl
  rw [placeGap?_eq h (by omega), Option.bind_eq_bind, Option.bind_some, sub?_of_le (by omega)]
  rfl

theorem deleteByte?_eq (h : b.WellFormed) (pos : Nat) :
    b.deleteByte? pos = some (b.deleteByte pos) := by
  rw [deleteByte?, length?_eq h, Option.bind_eq_bind, Option.bind_some]
  unfold deleteByte isEmpty
  by_cases hzero : b.length = 0
  · rw [if_pos hzero, hzero]
    rfl
  · rw [if_neg hzero, if_neg (by simpa using hzero)]
    exact delete?_eq h _ _

theorem clear?_eq (h : b.WellFormed) : b.clear? = some b.clear := by
  rw [clear?, length?_eq h, Option.bind_eq_bind, Option.bind_some]
  exact delete?_eq h _ _

/-! ## Reading -/

def byteAt? (b : GapBuffer) (pos : Nat) : Option UInt8 :=
  if pos < b.gapStart then b.region[pos]?
  else do
    let gap ← b.gapLength?
    b.region[pos + gap]?

def get? (b : GapBuffer) (pos : Nat) : Option (Except BufferError UInt8) := do
  let length ← b.length?
  if length = 0 then some (.error .empty)
  else if length ≤ pos then some (.error (.invalidPosition pos length))
  else do
    let byte ← b.byteAt? pos
    some (.ok byte)

def runs? (b : GapBuffer) : Option (Region × Region) := do
  let front ← b.region.range? 0 b.gapStart
  let back ← b.region.range? b.gapEnd b.capacity
  some (front, back)

def contents? (b : GapBuffer) : Option (List UInt8) := do
  let (front, back) ← b.runs?
  some (front.toList ++ back.toList)

/-- The text of `[start, stop)`, copied run by run into a place of that size. -/
def slice? (b : GapBuffer) (start stop : Nat) : Option (List UInt8) := do
  let (front, back) ← b.runs?
  let size ← sub? stop start
  if stop ≤ front.size then do
    let part ← front.range? start stop
    if part.size = size then some part.toList else none
  else if front.size ≤ start then do
    let first ← sub? start front.size
    let last ← sub? stop front.size
    let part ← back.range? first last
    if part.size = size then some part.toList else none
  else do
    let head ← sub? front.size start
    let left ← front.range? start front.size
    let last ← sub? stop front.size
    let right ← back.range? 0 last
    let rest ← sub? size head
    if left.size = head ∧ right.size = rest then some (left.toList ++ right.toList) else none

def extract? (mem : Memory) (b : GapBuffer) (start stop : Nat) :
    Option (Except BufferError (List UInt8)) := do
  let length ← b.length?
  if stop < start ∨ length < stop then some (.error (.outOfBounds start stop length))
  else do
    let size ← sub? stop start
    if mem.copy size then do
      let part ← b.slice? start stop
      some (.ok part)
    else some (.error (.allocationFailed size))

def copyInto? (b : GapBuffer) (start stop : Nat) (dest : List UInt8) :
    Option (Except BufferError Nat × List UInt8) := do
  let length ← b.length?
  if stop < start ∨ length < stop then some (.error (.outOfBounds start stop length), dest)
  else do
    let size ← sub? stop start
    if dest.length < size then some (.error (.outOfBounds 0 size dest.length), dest)
    else do
      let part ← b.slice? start stop
      some (.ok size, part ++ dest.drop size)

def copyAllInto? (b : GapBuffer) (dest : List UInt8) :
    Option (Except BufferError Nat × List UInt8) := do
  let length ← b.length?
  b.copyInto? 0 length dest

theorem physical_lt (h : b.WellFormed) {pos : Nat} (hpos : pos < b.length) :
    b.physical pos < b.region.size := by
  have hroom := length_add_gapLength h
  have hstart := gapStart_le_length h
  rw [capacity] at hroom
  unfold physical
  split <;> omega

theorem byteAt?_eq (h : b.WellFormed) {pos : Nat} (hpos : pos < b.length) :
    b.byteAt? pos = some (b.byteAt pos) := by
  have hlt := physical_lt h hpos
  have hbyte : b.region[b.physical pos]? = some (b.byteAt pos) := by
    rw [byteAt, Array.getD_eq_getD_getElem?, Array.getElem?_eq_getElem hlt, Option.getD_some]
  rw [← hbyte]
  unfold byteAt? physical
  split
  · rfl
  · rw [gapLength?_eq h]
    rfl

theorem get?_eq (h : b.WellFormed) (pos : Nat) : b.get? pos = some (b.get pos) := by
  rw [get?, length?_eq h, Option.bind_eq_bind, Option.bind_some]
  unfold get isEmpty
  by_cases hzero : b.length = 0
  · rw [if_pos hzero, hzero]
    rfl
  · rw [if_neg hzero, if_neg (show ¬ (b.length == 0) = true by simpa using hzero)]
    split
    · rfl
    · next hlt =>
      rw [byteAt?_eq h (Nat.not_le.1 hlt)]
      rfl

theorem runs?_eq (h : b.WellFormed) :
    b.runs? = some (b.region.extract 0 b.gapStart, b.region.extract b.gapEnd b.region.size) := by
  obtain ⟨hgap, hend⟩ := h
  rw [runs?, capacity, Region.range?_of_le (Nat.zero_le _) (by omega), Option.bind_eq_bind,
    Option.bind_some, Region.range?_of_le hend (Nat.le_refl _)]
  rfl

theorem contents?_eq (h : b.WellFormed) : b.contents? = some b.contents := by
  rw [contents?, runs?_eq h]
  rfl

theorem slice?_eq (h : b.WellFormed) {start stop : Nat} (hle : start ≤ stop)
    (hstop : stop ≤ b.length) : b.slice? start stop = some (b.slice start stop) := by
  have hroom := length_add_gapLength h
  simp only [slice?, runs?_eq h, Option.bind_eq_bind, Option.bind_some, sub?_of_le hle]
  obtain ⟨hgap, hend⟩ := h
  simp only [gapLength, capacity] at hroom
  have hfront : (b.region.extract 0 b.gapStart).size = b.gapStart := by
    rw [Array.size_extract]; omega
  have hback : (b.region.extract b.gapEnd b.region.size).size = b.region.size - b.gapEnd := by
    rw [Array.size_extract]; omega
  rw [hfront]
  simp only [slice]
  split
  · next hin =>
    rw [Region.range?_of_le hle (by omega), Option.bind_some, Array.extract_extract,
      if_pos (by rw [Array.size_extract]; omega), Nat.zero_add, Nat.zero_add,
      Nat.min_eq_left (by omega)]
  · split
    · next hin hout =>
      rw [sub?_of_le hout, Option.bind_some, sub?_of_le (by omega), Option.bind_some,
        Region.range?_of_le (by omega) (by omega), Option.bind_some, Array.extract_extract,
        if_pos (by rw [Array.size_extract]; omega), Nat.min_eq_left (by omega)]
    · next hin hout =>
      -- the range lies across the gap, and each run gives its part
      rw [sub?_of_le (by omega), Option.bind_some, Region.range?_of_le (by omega) (by omega),
        Option.bind_some, sub?_of_le (by omega), Option.bind_some,
        Region.range?_of_le (Nat.zero_le _) (by omega), Option.bind_some, sub?_of_le (by omega),
        Option.bind_some, Array.extract_extract, Array.extract_extract, Nat.zero_add, Nat.zero_add,
        Nat.add_zero, Nat.min_self, Nat.min_eq_left (by omega),
        if_pos (by rw [Array.size_extract, Array.size_extract]; omega)]

theorem extract?_eq (mem : Memory) (h : b.WellFormed) (start stop : Nat) :
    b.extract? mem start stop = some (b.extract mem start stop) := by
  rw [extract?, length?_eq h, Option.bind_eq_bind, Option.bind_some]
  unfold extract checkRange
  split
  · rfl
  · next hin =>
    rw [sub?_of_le (by omega), Option.bind_eq_bind, Option.bind_some]
    simp only
    split
    · rw [slice?_eq h (by omega) (by omega)]
      rfl
    · rfl

theorem copyInto?_eq (h : b.WellFormed) (start stop : Nat) (dest : List UInt8) :
    b.copyInto? start stop dest = some (b.copyInto start stop dest) := by
  rw [copyInto?, length?_eq h, Option.bind_eq_bind, Option.bind_some]
  unfold copyInto checkRange
  split
  · rfl
  · next hin =>
    rw [sub?_of_le (by omega), Option.bind_eq_bind, Option.bind_some]
    simp only
    split
    · rfl
    · rw [slice?_eq h (by omega) (by omega)]
      rfl

theorem copyAllInto?_eq (h : b.WellFormed) (dest : List UInt8) :
    b.copyAllInto? dest = some (b.copyAllInto dest) := by
  rw [copyAllInto?, length?_eq h, Option.bind_eq_bind, Option.bind_some]
  exact copyInto?_eq h _ _ _

/-! ## Searching and counting lines -/

/-- The first of the `count` positions from `start` on that satisfies a test that can stop. -/
def firstIn? (p : Nat → Option Bool) : (start count : Nat) → Option (Option Nat)
  | _, 0 => some none
  | start, count + 1 => do
    let hit ← p start
    if hit then some (some start) else firstIn? p (start + 1) count

def findByte? (b : GapBuffer) (start : Nat) (byte : UInt8) : Option (Option Nat) := do
  let length ← b.length?
  firstIn? (fun pos => (b.byteAt? pos).map (· == byte)) start (length - start)

def matchesAt? (b : GapBuffer) (pos : Nat) : (needle : List UInt8) → Option Bool
  | [] => some true
  | byte :: rest => do
    let held ← b.byteAt? pos
    if held == byte then b.matchesAt? (pos + 1) rest else some false

def findBytes? (b : GapBuffer) (start : Nat) (needle : List UInt8) : Option (Option Nat) := do
  let length ← b.length?
  if length < start then some none
  else if needle.isEmpty then some (some start)
  else if length < needle.length then some none
  else do
    let last ← sub? length needle.length
    firstIn? (fun pos => b.matchesAt? pos needle) start (last + 1 - start)

def startOfLine? (b : GapBuffer) : (pos : Nat) → Option Nat
  | 0 => some 0
  | pos + 1 => do
    let held ← b.byteAt? pos
    if held == newline then some (pos + 1) else b.startOfLine? pos

/-- The number of newlines before `pos`. -/
def newlinesBefore? (b : GapBuffer) : (pos : Nat) → Option Nat
  | 0 => some 0
  | pos + 1 => do
    let held ← b.byteAt? pos
    let count ← b.newlinesBefore? pos
    some (if held == newline then count + 1 else count)

/-- Reads with `f` at a position of the text. -/
def atPosition? (b : GapBuffer) (pos : Nat) (f : Option Nat) :
    Option (Except BufferError Nat) := do
  let length ← b.length?
  if length < pos then some (.error (.invalidPosition pos length))
  else do
    let answer ← f
    some (.ok answer)

def lineStart? (b : GapBuffer) (pos : Nat) : Option (Except BufferError Nat) :=
  b.atPosition? pos (b.startOfLine? pos)

def lineEnd? (b : GapBuffer) (pos : Nat) : Option (Except BufferError Nat) :=
  b.atPosition? pos do
    let found ← b.findByte? pos newline
    let length ← b.length?
    some (found.getD length)

def lineNumber? (b : GapBuffer) (pos : Nat) : Option (Except BufferError Nat) :=
  b.atPosition? pos (b.newlinesBefore? pos)

def lineCount? (b : GapBuffer) : Option Nat := do
  let text ← b.contents?
  some (text.count newline + 1)

theorem firstIn?_eq {p : Nat → Option Bool} {q : Nat → Bool} (start count : Nat)
    (h : ∀ i, start ≤ i → i < start + count → p i = some (q i)) :
    firstIn? p start count = some (firstIn q start count) := by
  induction count generalizing start with
  | zero => rfl
  | succ count ih =>
    rw [firstIn?, firstIn, h start (Nat.le_refl _) (by omega), Option.bind_eq_bind,
      Option.bind_some, ih (start + 1) fun i hi hlt => h i (by omega) (by omega)]
    split <;> rfl

theorem findByte?_eq (h : b.WellFormed) (start : Nat) (byte : UInt8) :
    b.findByte? start byte = some (b.findByte start byte) := by
  rw [findByte?, length?_eq h, Option.bind_eq_bind, Option.bind_some]
  apply firstIn?_eq
  intro i hi hlt
  rw [byteAt?_eq h (by omega)]
  rfl

theorem matchesAt?_eq (h : b.WellFormed) (needle : List UInt8) {pos : Nat}
    (hpos : pos + needle.length ≤ b.length) :
    b.matchesAt? pos needle = some (b.matchesAt pos needle) := by
  induction needle generalizing pos with
  | nil => rfl
  | cons byte rest ih =>
    rw [List.length_cons] at hpos
    rw [matchesAt?, matchesAt, byteAt?_eq h (by omega), Option.bind_eq_bind, Option.bind_some,
      ih (by omega)]
    cases b.byteAt pos == byte <;> rfl

theorem findBytes?_eq (h : b.WellFormed) (start : Nat) (needle : List UInt8) :
    b.findBytes? start needle = some (b.findBytes start needle) := by
  rw [findBytes?, length?_eq h, Option.bind_eq_bind, Option.bind_some]
  unfold findBytes
  split
  · rfl
  split
  · rfl
  split
  · rfl
  next hlen =>
  rw [sub?_of_le (by omega), Option.bind_some]
  apply firstIn?_eq
  intro i hi hlt
  exact matchesAt?_eq h needle (by omega)

theorem startOfLine?_eq (h : b.WellFormed) {pos : Nat} (hpos : pos ≤ b.length) :
    b.startOfLine? pos = some (b.startOfLine pos) := by
  induction pos with
  | zero => rfl
  | succ pos ih =>
    rw [startOfLine?, startOfLine, byteAt?_eq h (by omega), Option.bind_eq_bind, Option.bind_some,
      ih (by omega)]
    split <;> rfl

theorem newlinesBefore?_eq (h : b.WellFormed) {pos : Nat} (hpos : pos ≤ b.length) :
    b.newlinesBefore? pos = some ((List.range pos).countP fun i => b.byteAt i == newline) := by
  induction pos with
  | zero => rfl
  | succ pos ih =>
    rw [newlinesBefore?, byteAt?_eq h (by omega), Option.bind_eq_bind, Option.bind_some,
      ih (by omega), Option.bind_eq_bind, Option.bind_some, List.range_succ, List.countP_append,
      List.countP_singleton]
    split <;> rfl

theorem atPosition?_eq (h : b.WellFormed) (pos : Nat) {f : Option Nat} {answer : Nat}
    (hf : pos ≤ b.length → f = some answer) :
    b.atPosition? pos f = some ((b.checkPosition pos).map fun _ => answer) := by
  rw [atPosition?, length?_eq h, Option.bind_eq_bind, Option.bind_some]
  unfold checkPosition
  split
  · rfl
  · next hge =>
    rw [hf (Nat.not_lt.1 hge)]
    rfl

/-- No check fails in an operation that only reads. -/
structure ReadsInRange (b : GapBuffer) : Prop where
  length : b.length? = some b.length
  get : ∀ pos, b.get? pos = some (b.get pos)
  contents : b.contents? = some b.contents
  extract : ∀ mem start stop, b.extract? mem start stop = some (b.extract mem start stop)
  copyInto : ∀ start stop dest, b.copyInto? start stop dest = some (b.copyInto start stop dest)
  copyAllInto : ∀ dest, b.copyAllInto? dest = some (b.copyAllInto dest)
  findByte : ∀ start byte, b.findByte? start byte = some (b.findByte start byte)
  findBytes : ∀ start needle, b.findBytes? start needle = some (b.findBytes start needle)
  lineStart : ∀ pos, b.lineStart? pos = some (b.lineStart pos)
  lineEnd : ∀ pos, b.lineEnd? pos = some (b.lineEnd pos)
  lineNumber : ∀ pos, b.lineNumber? pos = some (b.lineNumber pos)
  lineCount : b.lineCount? = some b.lineCount

theorem readsInRange (h : b.WellFormed) : b.ReadsInRange where
  length := length?_eq h
  get := get?_eq h
  contents := contents?_eq h
  extract mem := extract?_eq mem h
  copyInto := copyInto?_eq h
  copyAllInto := copyAllInto?_eq h
  findByte := findByte?_eq h
  findBytes := findBytes?_eq h
  lineStart pos := atPosition?_eq h pos fun hpos => startOfLine?_eq h hpos
  lineEnd pos := atPosition?_eq h pos fun _ => by
    rw [findByte?_eq h, Option.bind_eq_bind, Option.bind_some, length?_eq h]
    rfl
  lineNumber pos := atPosition?_eq h pos fun hpos => newlinesBefore?_eq h hpos
  lineCount := by
    rw [lineCount?, contents?_eq h]
    rfl

end GapBuffer

end TextStore
