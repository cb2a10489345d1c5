import TextStore.Proofs.Gap.Checked

/-!
# A gap buffer is a list of bytes

* `GapOp` : a public operation that can change a buffer, with its arguments; `perform` is what it
  does, `perform?` the same with every access checked, and `onText` what it does to a plain text;
* `GapStart` : the ways to make a buffer;
* `Refines` : a buffer that answers and acts, in every operation, as its text does;
* `run_refines_text` : every run of operations on a new buffer gives the answers that the same run
  on a list of bytes gives, and ends in a buffer that refines the list it ends in;
* `Reachable` : what any operations lead to from a new buffer. It is well formed.
-/

namespace TextStore

/-- A text as a list of bytes that may refuse edits. -/
structure Text where
  bytes : List UInt8 := []
  readOnly : Bool := false
  deriving DecidableEq, Repr

namespace Text

def insert (t : Text) (pos : Nat) (bytes : List UInt8) : Except BufferError Unit × Text :=
  if t.bytes.length < pos then (.error (.invalidPosition pos t.bytes.length), t)
  else if t.readOnly then (.error .readOnly, t)
  else (.ok (), { t with bytes := t.bytes.take pos ++ bytes ++ t.bytes.drop pos })

def delete (t : Text) (start stop : Nat) : Except BufferError Unit × Text :=
  if stop < start ∨ t.bytes.length < stop then
    (.error (.outOfBounds start stop t.bytes.length), t)
  else if t.readOnly then (.error .readOnly, t)
  else (.ok (), { t with bytes := t.bytes.take start ++ t.bytes.drop stop })

end Text

/-- An operation that can change a gap buffer. -/
inductive GapOp where
  | insert (pos : Nat) (bytes : List UInt8)
  | insertByte (pos : Nat) (byte : UInt8)
  | delete (start stop : Nat)
  | deleteByte (pos : Nat)
  | clear
  | moveGap (pos : Nat)
  | reserve (needed : Nat)
  | setReadOnly (on : Bool)
  | setModified (on : Bool)
  | clearModified
  deriving DecidableEq, Repr

/-- Whether an answer reports that memory was refused. -/
def isRefusal : Except BufferError Unit → Bool
  | .error (.allocationFailed _) => true
  | _ => false

namespace GapOp

def perform (mem : Memory) (b : GapBuffer) : GapOp → Except BufferError Unit × GapBuffer
  | insert pos bytes => b.insert mem pos bytes
  | insertByte pos byte => b.insertByte mem pos byte
  | delete start stop => b.delete start stop
  | deleteByte pos => b.deleteByte pos
  | clear => b.clear
  | moveGap pos => b.moveGap pos
  | reserve needed => b.reserve mem needed
  | setReadOnly on => (.ok (), b.setReadOnly on)
  | setModified on => (.ok (), b.setModified on)
  | clearModified => (.ok (), b.clearModified)

/-- What the operation does to a gap buffer when every access is checked. -/
def perform? (mem : Memory) (b : GapBuffer) :
    GapOp → Option (Except BufferError Unit × GapBuffer)
  | insert pos bytes => b.insert? mem pos bytes
  | insertByte pos byte => b.insert? mem pos [byte]
  | delete start stop => b.delete? start stop
  | deleteByte pos => b.deleteByte? pos
  | clear => b.clear?
  | moveGap pos => b.moveGap? pos
  | reserve needed => b.reserve? mem needed
  | setReadOnly on => some (.ok (), b.setReadOnly on)
  | setModified on => some (.ok (), b.setModified on)
  | clearModified => some (.ok (), b.clearModified)

def onText (t : Text) : GapOp → Except BufferError Unit × Text
  | insert pos bytes => t.insert pos bytes
  | insertByte pos byte => t.insert pos [byte]
  | delete start stop => t.delete start stop
  | deleteByte pos =>
    if t.bytes = [] then (.error (if t.readOnly then .readOnly else .empty), t)
    else t.delete pos (pos + 1)
  | clear => t.delete 0 t.bytes.length
  | moveGap pos =>
    if t.bytes.length < pos then (.error (.invalidPosition pos t.bytes.length), t) else (.ok (), t)
  | setReadOnly on => (.ok (), { t with readOnly := on })
  | reserve _ | setModified _ | clearModified => (.ok (), t)

/-- The size of the region that the operation needs on a text of `length` bytes. -/
def needed (length : Nat) : GapOp → Nat
  | insert _ bytes => length + bytes.length
  | insertByte _ _ => length + 1
  | reserve needed => needed
  | _ => 0

end GapOp

namespace GapBuffer

variable {b : GapBuffer}

def text (b : GapBuffer) : Text := { bytes := b.contents, readOnly := b.readOnly }

/-- In every operation `b` answers and acts as the text `t`, and no access is out of range. -/
structure Refines (b : GapBuffer) (t : Text) : Prop where
  wellFormed : b.WellFormed
  text : b.text = t
  /-- No index, slice or subtraction of an operation is out of range. -/
  inRange : ∀ (mem : Memory) (op : GapOp), op.perform? mem b = some (op.perform mem b)
  readsInRange : b.ReadsInRange
  /-- Unless memory is refused, the operation does to `b` what it does to `t`. -/
  step : ∀ (mem : Memory) (op : GapOp), isRefusal (op.perform mem b).1 = false →
    (op.perform mem b).1 = (op.onText t).1 ∧ (op.perform mem b).2.text = (op.onText t).2
  /-- Memory is refused exactly when `t` accepts the operation and the region that it needs is not
  granted; nothing changes then. -/
  refusal : ∀ (mem : Memory) (op : GapOp), isRefusal (op.perform mem b).1 = true ↔
    (op.onText t).1 = .ok () ∧ ¬ b.Grants mem (op.needed t.bytes.length)
  unchanged : ∀ (mem : Memory) (op : GapOp), isRefusal (op.perform mem b).1 = true →
    (op.perform mem b).2 = b
  moveGap : ∀ pos, pos ≤ t.bytes.length → (b.moveGap pos).2.gapStart = pos
  reserve : ∀ (mem : Memory) (needed : Nat), (b.reserve mem needed).1 = .ok () →
    (b.reserve mem needed).2.gapStart = b.gapStart ∧ needed ≤ (b.reserve mem needed).2.capacity

/-! ## One operation -/

/-- The operation agrees with what it does to the text; an answer `ok` means that memory had
granted the region. -/
structure Agrees (mem : Memory) (b : GapBuffer) (op : GapOp) : Prop where
  answer : (op.perform mem b).1 = (op.onText b.text).1
  text : (op.perform mem b).2.text = (op.onText b.text).2
  wellFormed : (op.perform mem b).2.WellFormed
  grants : (op.onText b.text).1 = .ok () → b.Grants mem (op.needed b.length)

/-- The text would accept the operation, but memory refuses the region, and nothing happens. -/
structure Refuses (mem : Memory) (b : GapBuffer) (op : GapOp) : Prop where
  answer : ∃ n, op.perform mem b = (.error (.allocationFailed n), b)
  accepted : (op.onText b.text).1 = .ok ()
  grants : ¬ b.Grants mem (op.needed b.length)

theorem Becomes.text {b' : GapBuffer} {t : List UInt8} (h : b.Becomes b' t) :
    b'.text = { bytes := t, readOnly := b.readOnly } := by
  rw [GapBuffer.text, h.contents, h.readOnly]

theorem length_text (h : b.WellFormed) : b.text.bytes.length = b.length := length_contents h

theorem grants_zero (mem : Memory) (b : GapBuffer) : b.Grants mem 0 := fun h => absurd h (by omega)

theorem Agrees.of_eq {mem : Memory} {op : GapOp} {answer : Except BufferError Unit} {b' : GapBuffer}
    (hperform : op.perform mem b = (answer, b')) (htext : op.onText b.text = (answer, b'.text))
    (hwf : b'.WellFormed) (hgrants : answer = .ok () → b.Grants mem (op.needed b.length)) :
    Agrees mem b op := by
  refine ⟨?_, ?_, ?_, ?_⟩
  · rw [hperform, htext]
  · rw [hperform, htext]
  · rw [hperform]
    exact hwf
  · rw [htext]
    exact hgrants

theorem insert_agrees (mem : Memory) (h : b.WellFormed) (pos : Nat) (bytes : List UInt8) :
    Agrees mem b (.insert pos bytes) ∨ Refuses mem b (.insert pos bytes) := by
  have hlen := length_text h
  rcases insert_cases mem h pos bytes with ⟨hlt, heq⟩ | ⟨hpos, hro, heq⟩ | ⟨hpos, hw, hno, n, heq⟩ |
    ⟨hpos, hw, hgrants, b', heq, hb'⟩
  · refine .inl (.of_eq heq ?_ h nofun)
    rw [GapOp.onText, Text.insert, hlen, if_pos hlt]
  · refine .inl (.of_eq heq ?_ h nofun)
    rw [GapOp.onText, Text.insert, hlen, if_neg (by omega), if_pos (show b.text.readOnly = true from hro)]
  · refine .inr ⟨⟨n, heq⟩, ?_, hno⟩
    rw [GapOp.onText, Text.insert, hlen, if_neg (by omega), if_neg (by simp [GapBuffer.text, hw])]
  · refine .inl (.of_eq heq ?_ hb'.wellFormed fun _ => hgrants)
    rw [GapOp.onText, Text.insert, hlen, if_neg (by omega), if_neg (by simp [GapBuffer.text, hw]),
      hb'.text]
    rfl

theorem delete_agrees (mem : Memory) (h : b.WellFormed) (start stop : Nat) :
    Agrees mem b (.delete start stop) := by
  have hlen := length_text h
  rcases delete_cases h start stop with ⟨hbad, heq⟩ | ⟨hle, hstop, hro, heq⟩ |
    ⟨hle, hstop, hw, b', heq, hb'⟩
  · refine .of_eq heq ?_ h nofun
    rw [GapOp.onText, Text.delete, hlen, if_pos hbad]
  · refine .of_eq heq ?_ h nofun
    rw [GapOp.onText, Text.delete, hlen, if_neg (by omega), if_pos (show b.text.readOnly = true from hro)]
  · refine .of_eq heq ?_ hb'.wellFormed fun _ => grants_zero mem b
    rw [GapOp.onText, Text.delete, hlen, if_neg (by omega), if_neg (by simp [GapBuffer.text, hw]),
      hb'.text]
    rfl

theorem deleteByte_agrees (mem : Memory) (h : b.WellFormed) (pos : Nat) :
    Agrees mem b (.deleteByte pos) := by
  have hempty : b.text.bytes = [] ↔ b.isEmpty = true := by
    rw [← List.length_eq_zero_iff, length_text h, isEmpty, beq_iff_eq]
  by_cases he : b.isEmpty = true
  · have hperform : GapOp.perform mem b (.deleteByte pos) =
        (.error (if b.readOnly then .readOnly else .empty), b) := by
      rw [GapOp.perform, deleteByte, if_pos he]
    refine .of_eq hperform ?_ h fun _ => grants_zero mem b
    rw [GapOp.onText, if_pos (hempty.2 he)]
    rfl
  · have hdelete := delete_agrees mem h pos (pos + 1)
    have hperform : GapOp.perform mem b (.deleteByte pos) = b.delete pos (pos + 1) := by
      rw [GapOp.perform, deleteByte, if_neg he]
    refine .of_eq hperform ?_ hdelete.wellFormed fun _ => grants_zero mem b
    rw [GapOp.onText, if_neg fun hnil => he (hempty.1 hnil)]
    exact Prod.ext hdelete.answer.symm hdelete.text.symm

theorem moveGap_agrees (mem : Memory) (h : b.WellFormed) (pos : Nat) :
    Agrees mem b (.moveGap pos) := by
  have hlen := length_text h
  by_cases hlt : b.length < pos
  · have hperform : GapOp.perform mem b (.moveGap pos) =
        (.error (.invalidPosition pos b.length), b) := by
      rw [GapOp.perform, moveGap, if_pos hlt]
    refine .of_eq hperform ?_ h nofun
    rw [GapOp.onText, hlen, if_pos hlt]
  · have hruns := placeGap_runs h (Nat.not_lt.1 hlt)
    have hperform : GapOp.perform mem b (.moveGap pos) = (.ok (), b.placeGap pos) := by
      rw [GapOp.perform, moveGap, if_neg hlt]
    refine .of_eq hperform ?_ hruns.wellFormed fun _ => grants_zero mem b
    rw [GapOp.onText, hlen, if_neg hlt, GapBuffer.text, GapBuffer.text, hruns.contents,
      List.take_append_drop, readOnly_placeGap]

theorem reserve_agrees (mem : Memory) (h : b.WellFormed) (needed : Nat) :
    Agrees mem b (.reserve needed) ∨ Refuses mem b (.reserve needed) := by
  rcases reserve_cases mem b needed with ⟨hle, heq⟩ | ⟨hlt, hgrants, size, hsize, heq⟩ |
    ⟨hlt, hno, n, heq⟩
  · exact .inl (.of_eq heq rfl h fun _ hlt => absurd hle (Nat.not_le.2 hlt))
  · have hruns := grow_runs h (show b.capacity ≤ size by omega)
    refine .inl (.of_eq heq ?_ hruns.wellFormed fun _ => hgrants)
    rw [GapOp.onText, GapBuffer.text, GapBuffer.text, hruns.contents]
    rfl
  · exact .inr ⟨⟨n, heq⟩, rfl, hno⟩

/-- Every operation agrees with the text or is refused memory. -/
theorem agrees_or_refuses (mem : Memory) (h : b.WellFormed) (op : GapOp) :
    Agrees mem b op ∨ Refuses mem b op := by
  cases op with
  | insert pos bytes => exact insert_agrees mem h pos bytes
  | insertByte pos byte =>
    rcases insert_agrees mem h pos [byte] with hok | hno
    · exact .inl ⟨hok.answer, hok.text, hok.wellFormed, hok.grants⟩
    · exact .inr ⟨hno.answer, hno.accepted, hno.grants⟩
  | delete start stop => exact .inl (delete_agrees mem h start stop)
  | deleteByte pos => exact .inl (deleteByte_agrees mem h pos)
  | clear =>
    have hall := delete_agrees mem h 0 b.length
    refine .inl ⟨?_, ?_, hall.wellFormed, fun _ => grants_zero mem b⟩
    · rw [GapOp.onText, length_text h]
      exact hall.answer
    · rw [GapOp.onText, length_text h]
      exact hall.text
  | moveGap pos => exact .inl (moveGap_agrees mem h pos)
  | reserve needed => exact reserve_agrees mem h needed
  | setReadOnly on => exact .inl ⟨rfl, rfl, h, fun _ => grants_zero mem b⟩
  | setModified on => exact .inl ⟨rfl, rfl, h, fun _ => grants_zero mem b⟩
  | clearModified => exact .inl ⟨rfl, rfl, h, fun _ => grants_zero mem b⟩

theorem perform?_eq_some (mem : Memory) (h : b.WellFormed) (op : GapOp) :
    op.perform? mem b = some (op.perform mem b) := by
  cases op with
  | insert pos bytes => exact insert?_eq mem h pos bytes
  | insertByte pos byte => exact insert?_eq mem h pos [byte]
  | delete start stop => exact delete?_eq h start stop
  | deleteByte pos => exact deleteByte?_eq h pos
  | clear => exact clear?_eq h
  | moveGap pos => exact moveGap?_eq h pos
  | reserve needed => exact reserve?_eq mem h needed
  | setReadOnly on => rfl
  | setModified on => rfl
  | clearModified => rfl

theorem not_isRefusal_insert (t : Text) (pos : Nat) (bytes : List UInt8) :
    isRefusal (t.insert pos bytes).1 = false := by
  unfold Text.insert
  split
  · rfl
  · split <;> rfl

theorem not_isRefusal_delete (t : Text) (start stop : Nat) :
    isRefusal (t.delete start stop).1 = false := by
  unfold Text.delete
  split
  · rfl
  · split <;> rfl

theorem not_isRefusal_onText (t : Text) (op : GapOp) : isRefusal (op.onText t).1 = false := by
  cases op with
  | insert pos bytes => exact not_isRefusal_insert t pos bytes
  | insertByte pos byte => exact not_isRefusal_insert t pos [byte]
  | delete start stop => exact not_isRefusal_delete t start stop
  | deleteByte pos =>
    simp only [GapOp.onText]
    split
    · split <;> rfl
    · exact not_isRefusal_delete t pos (pos + 1)
  | clear => exact not_isRefusal_delete t 0 _
  | moveGap pos =>
    simp only [GapOp.onText]
    split <;> rfl
  | reserve needed => rfl
  | setReadOnly on => rfl
  | setModified on => rfl
  | clearModified => rfl

theorem Agrees.not_isRefusal {mem : Memory} {op : GapOp} (h : Agrees mem b op) :
    isRefusal (op.perform mem b).1 = false := by
  rw [h.answer]
  exact not_isRefusal_onText _ _

theorem Refuses.isRefusal {mem : Memory} {op : GapOp} (h : Refuses mem b op) :
    isRefusal (op.perform mem b).1 = true := by
  obtain ⟨n, heq⟩ := h.answer
  rw [heq]
  rfl

theorem gapStart_reserve (mem : Memory) (b : GapBuffer) (needed : Nat) :
    (b.reserve mem needed).2.gapStart = b.gapStart := by
  rcases reserve_cases mem b needed with ⟨-, heq⟩ | ⟨-, -, size, -, heq⟩ | ⟨-, -, n, heq⟩
  · rw [heq]
  · rw [heq]
    rfl
  · rw [heq]

theorem le_capacity_of_reserve (mem : Memory) (h : b.WellFormed) (needed : Nat)
    (hok : (b.reserve mem needed).1 = .ok ()) : needed ≤ (b.reserve mem needed).2.capacity := by
  rcases reserve_cases mem b needed with ⟨hle, heq⟩ | ⟨hlt, -, size, hsize, heq⟩ | ⟨-, -, n, heq⟩
  · rw [heq]
    exact hle
  · have hlen := (exists_runs h).length
    rw [heq, (grow_runs h (show b.capacity ≤ size by omega)).capacity]
    omega
  · rw [heq] at hok
    cases hok

/-- A well-formed buffer refines its own text. -/
theorem refines_text (h : b.WellFormed) : b.Refines b.text where
  wellFormed := h
  text := rfl
  inRange mem op := perform?_eq_some mem h op
  readsInRange := readsInRange h
  step mem op hno := by
    rcases agrees_or_refuses mem h op with hop | hop
    · exact ⟨hop.answer, hop.text⟩
    · rw [hop.isRefusal] at hno
      cases hno
  refusal mem op := by
    rw [length_text h]
    rcases agrees_or_refuses mem h op with hop | hop
    · rw [hop.not_isRefusal]
      exact ⟨nofun, fun hrefused => absurd (hop.grants hrefused.1) hrefused.2⟩
    · exact ⟨fun _ => ⟨hop.accepted, hop.grants⟩, fun _ => hop.isRefusal⟩
  unchanged mem op hrefused := by
    rcases agrees_or_refuses mem h op with hop | hop
    · rw [hop.not_isRefusal] at hrefused
      cases hrefused
    · obtain ⟨n, heq⟩ := hop.answer
      rw [heq]
  moveGap pos hpos := by
    have hle : pos ≤ b.length := length_text h ▸ hpos
    rw [GapBuffer.moveGap, if_neg (by omega), (placeGap_runs h hle).gapStart, List.length_take,
      length_contents h]
    exact Nat.min_eq_left hle
  reserve mem needed hok := ⟨gapStart_reserve mem b needed, le_capacity_of_reserve mem h needed hok⟩

/-! ## Runs of operations -/

/-- Performs operations in turn, each with the memory it finds, and collects the answers. -/
def run (b : GapBuffer) : List (Memory × GapOp) → List (Except BufferError Unit) × GapBuffer
  | [] => ([], b)
  | (mem, op) :: rest =>
    let after := run (op.perform mem b).2 rest
    ((op.perform mem b).1 :: after.1, after.2)

end GapBuffer

def Text.run (t : Text) : List GapOp → List (Except BufferError Unit) × Text
  | [] => ([], t)
  | op :: rest =>
    let after := run (op.onText t).2 rest
    ((op.onText t).1 :: after.1, after.2)

/-- A way to make a gap buffer. -/
inductive GapStart where
  | fresh
  | withCapacity (capacity : Nat)
  | ofBytes (bytes : List UInt8)
  deriving DecidableEq, Repr

namespace GapStart

def make (mem : Memory) : GapStart → Except BufferError GapBuffer
  | fresh => .ok (GapBuffer.fresh mem)
  | withCapacity capacity => GapBuffer.withCapacity mem capacity
  | ofBytes bytes => GapBuffer.ofBytes mem bytes

/-- The buffer that is made when the copy of the first text is checked. -/
def make? (mem : Memory) : GapStart → Option (Except BufferError GapBuffer)
  | ofBytes bytes =>
    let length := bytes.length
    let capacity := length + GapBuffer.minGap
    if wordRange ≤ capacity then some (.error (.allocationFailed length))
    else if mem.region capacity then do
      let region ← (Region.zeroed capacity).put? 0 length bytes.toArray
      some (.ok { region, gapStart := length, gapEnd := capacity
                  counters := { maxLength := length, maxCapacity := capacity } })
    else some (.error (.allocationFailed capacity))
  | start => some (start.make mem)

def bytes : GapStart → List UInt8
  | ofBytes bytes => bytes
  | _ => []

theorem make?_eq_some (mem : Memory) (start : GapStart) :
    start.make? mem = some (start.make mem) := by
  cases start with
  | fresh => rfl
  | withCapacity capacity => rfl
  | ofBytes bytes =>
    simp only [make?, make, GapBuffer.ofBytes]
    split
    · rfl
    · split
      · rw [Region.put?_of_le (Nat.zero_le _) (by simp [Region.zeroed]) (by simp)]
        rfl
      · rfl

end GapStart

namespace GapBuffer

variable {b : GapBuffer}

/-- A new buffer holds the text it was made from and accepts edits. -/
theorem make_text {start : GapStart} {mem : Memory} {b : GapBuffer} (h : start.make mem = .ok b) :
    b.WellFormed ∧ b.text = { bytes := start.bytes } := by
  cases start with
  | fresh =>
    simp only [GapStart.make, fresh] at h
    split at h
    · next b' hb' =>
      cases h
      obtain ⟨hruns, hro⟩ := withCapacity_runs hb'
      exact ⟨hruns.wellFormed, by rw [text, hruns.contents, hro]; rfl⟩
    · cases h
      decide
  | withCapacity capacity =>
    obtain ⟨hruns, hro⟩ := withCapacity_runs h
    exact ⟨hruns.wellFormed, by rw [text, hruns.contents, hro]; rfl⟩
  | ofBytes bytes =>
    obtain ⟨hruns, hro⟩ := ofBytes_runs h
    exact ⟨hruns.wellFormed, by rw [text, hruns.contents, hro, List.append_nil]; rfl⟩

/-- A run without refusals does what it does to the text. -/
theorem run_agrees (h : b.WellFormed) (steps : List (Memory × GapOp))
    (hno : ∀ answer ∈ (b.run steps).1, isRefusal answer = false) :
    (b.run steps).1 = (b.text.run (steps.map Prod.snd)).1 ∧ (b.run steps).2.WellFormed ∧
      (b.run steps).2.text = (b.text.run (steps.map Prod.snd)).2 := by
  induction steps generalizing b with
  | nil => exact ⟨rfl, h, rfl⟩
  | cons step rest ih =>
    obtain ⟨mem, op⟩ := step
    simp only [run, List.mem_cons, forall_eq_or_imp] at hno
    rcases agrees_or_refuses mem h op with hop | hop
    · obtain ⟨hanswers, hwf, htext⟩ := ih hop.wellFormed hno.2
      simp only [run, List.map_cons, Text.run, ← hop.answer, ← hop.text]
      exact ⟨by rw [hanswers], hwf, htext⟩
    · rw [hop.isRefusal] at hno
      cases hno.1

/-- However a buffer was made and whatever was done to it since, as long as no memory was refused
it has given the answers that a list of bytes gives, and it refines that list still. -/
theorem run_refines_text (start : GapStart) (mem : Memory) (b : GapBuffer)
    (hstart : start.make mem = .ok b) (steps : List (Memory × GapOp))
    (hgranted : ∀ answer ∈ (b.run steps).1, isRefusal answer = false) :
    start.make? mem = some (.ok b) ∧
      (b.run steps).1 = (Text.run { bytes := start.bytes } (steps.map Prod.snd)).1 ∧
      (b.run steps).2.Refines (Text.run { bytes := start.bytes } (steps.map Prod.snd)).2 := by
  obtain ⟨hwf, htext⟩ := make_text hstart
  obtain ⟨hanswers, hlast, hlastText⟩ := run_agrees hwf steps hgranted
  rw [← htext]
  exact ⟨hstart ▸ start.make?_eq_some mem, hanswers, hlastText ▸ refines_text hlast⟩

/-- The gap crosses the text in both directions, and the last edit meets the read-only flag. -/
theorem run_refines_text_crossing : ∃ b, GapStart.make .ample (.withCapacity 6) = .ok b ∧
    (b.run [(.ample, .insert 0 [97, 98, 99]), (.ample, .insert 1 [120, 121]), (.ample, .delete 3 5),
      (.ample, .moveGap 0), (.ample, .setReadOnly true), (.ample, .deleteByte 0)]).2.text =
      { bytes := [97, 120, 121], readOnly := true } := by
  refine ⟨_, rfl, ?_⟩
  exact (run_refines_text (.withCapacity 6) .ample _ rfl
    [(.ample, .insert 0 [97, 98, 99]), (.ample, .insert 1 [120, 121]), (.ample, .delete 3 5),
      (.ample, .moveGap 0), (.ample, .setReadOnly true), (.ample, .deleteByte 0)]
    (by decide +kernel)).2.2.text.trans (by decide)

/-! ## Reachable buffers -/

/-- The buffer was made in one of the three ways and edited since, with or without refusals. -/
def Reachable (b : GapBuffer) : Prop :=
  ∃ start mem made steps, GapStart.make mem start = .ok made ∧ b = (made.run steps).2

theorem wellFormed_perform (hb : b.WellFormed) (mem : Memory) (op : GapOp) :
    (op.perform mem b).2.WellFormed := by
  rcases agrees_or_refuses mem hb op with hop | hop
  · exact hop.wellFormed
  · obtain ⟨n, heq⟩ := hop.answer
    rw [heq]
    exact hb

theorem wellFormed_run (hb : b.WellFormed) (steps : List (Memory × GapOp)) :
    (b.run steps).2.WellFormed := by
  induction steps generalizing b with
  | nil => exact hb
  | cons step rest ih => exact ih (wellFormed_perform hb step.1 step.2)

theorem run_snd (b : GapBuffer) (steps : List (Memory × GapOp)) :
    (b.run steps).2 = steps.foldl (fun b step => (step.2.perform step.1 b).2) b := by
  induction steps generalizing b with
  | nil => rfl
  | cons step rest ih => exact ih _

theorem run_append_snd (b : GapBuffer) (steps later : List (Memory × GapOp)) :
    (b.run (steps ++ later)).2 = ((b.run steps).2.run later).2 := by
  rw [run_snd, run_snd, run_snd, List.foldl_append]

theorem Reachable.wellFormed (hb : b.Reachable) : b.WellFormed := by
  obtain ⟨start, mem, made, steps, hmade, rfl⟩ := hb
  exact wellFormed_run (make_text hmade).1 steps

end GapBuffer

end TextStore
