import TextStore.Proofs.Gap.Growth
import TextStore.Proofs.Gap.Sizes
import TextStore.Proofs.Store.BufferCalls

/-!
# The counters are a ledger

The counters of a gap buffer are kept in four places of the code, some of them within others: an
insertion may grow the region and move the gap. Here they are compared with the journal of a run,
which is kept outside.

* `JournalEntry`, `journal` : the operations of a run, each with its answer and the buffer before and
  after it. `inserts`, `deletes`, `grows` and `movesGap` say what an entry counts as;
* `JournalEntry.charge` : what one entry makes of the counters. `Effect.charge` : so does every
  operation with an effect, and `counters_run` so does a run with its journal;
* `UpToDate` : the marks of the longest text and of the largest region are as the buffer is now.
  New buffers have them so, and every operation keeps them so;
* `Ledger b entries last` : the counters of `last` are those of the journal that started with `b`;
* `counters_keep_ledger` : so it is after all calls on every new buffer, replays included.
-/

namespace TextStore

/-- The text position that an operation of `b` works at, if it has something to do in the text. -/
def GapOp.place? (b : GapBuffer) : GapOp → Option Nat
  | insert pos bytes => if bytes = [] then none else some pos
  | insertByte pos _ => some pos
  | delete start stop => if start = stop then none else some start
  | deleteByte pos => some pos
  | clear => if b.length = 0 then none else some 0
  | moveGap pos => some pos
  | reserve _ | setReadOnly _ | setModified _ | clearModified => none

theorem GapOp.place?_of_inserted? {op : GapOp} {pos : Nat} {bytes : List UInt8} (b : GapBuffer)
    (h : op.inserted? = some (pos, bytes)) :
    op.place? b = if bytes = [] then none else some pos := by
  cases op <;> cases h <;> rfl

theorem GapOp.place?_of_deleted? {op : GapOp} {b : GapBuffer} {start stop : Nat}
    (h : op.deleted? b = some (start, stop)) :
    op.place? b = if start = stop then none else some start := by
  cases op with
  | delete => cases h; rfl
  | deleteByte => cases h; simp [place?]
  | clear => cases h; simp [place?, eq_comm]
  | _ => cases h

theorem GapOp.place?_of_marks? {op : GapOp} {on : Bool} (b : GapBuffer) (h : op.marks? = some on) :
    op.place? b = none := by
  cases op <;> cases h <;> rfl

/-- An operation, its answer, and the buffer before and after it. -/
structure JournalEntry where
  before : GapBuffer
  op : GapOp
  answer : Except BufferError Unit
  after : GapBuffer

namespace JournalEntry

/-- At least one byte was put in. -/
def inserts (e : JournalEntry) : Bool :=
  e.answer.isOk && e.op.inserted?.any fun edit => edit.2 != []

/-- At least one byte was taken out. -/
def deletes (e : JournalEntry) : Bool :=
  e.answer.isOk && (e.op.deleted? e.before).any fun range => range.1 != range.2

/-- The region was replaced. -/
def grows (e : JournalEntry) : Bool := e.after.capacity != e.before.capacity

/-- The operation worked at another place than where the gap was. -/
def movesGap (e : JournalEntry) : Bool :=
  e.answer.isOk && (e.op.place? e.before).any fun pos => pos != e.before.gapStart

section

variable (b b' : GapBuffer) (op : GapOp) (e : BufferError)

@[simp] theorem inserts_error : inserts ⟨b, op, .error e, b'⟩ = false := rfl

@[simp] theorem inserts_ok :
    inserts ⟨b, op, .ok (), b'⟩ = op.inserted?.any fun edit => edit.2 != [] := rfl

@[simp] theorem deletes_error : deletes ⟨b, op, .error e, b'⟩ = false := rfl

@[simp] theorem deletes_ok :
    deletes ⟨b, op, .ok (), b'⟩ = (op.deleted? b).any fun range => range.1 != range.2 := rfl

@[simp] theorem movesGap_error : movesGap ⟨b, op, .error e, b'⟩ = false := rfl

@[simp] theorem movesGap_ok :
    movesGap ⟨b, op, .ok (), b'⟩ = (op.place? b).any fun pos => pos != b.gapStart := rfl

@[simp] theorem grows_mk (answer : Except BufferError Unit) :
    grows ⟨b, op, answer, b'⟩ = (b'.capacity != b.capacity) := rfl

end

/-- What the operation of the entry makes of the counters. -/
def charge (c : Counters) (e : JournalEntry) : Counters :=
  { c with
    inserts := c.inserts + if e.inserts then 1 else 0
    deletes := c.deletes + if e.deletes then 1 else 0
    gapMoves := c.gapMoves + if e.movesGap then 1 else 0
    maxLength := max c.maxLength e.after.length
    maxCapacity := max c.maxCapacity e.after.capacity
    growths := c.growths + if e.grows then 1 else 0 }

end JournalEntry

namespace GapBuffer

variable {b b₁ b' : GapBuffer} {op : GapOp} {answer : Except BufferError Unit} {needed : Nat}

/-- The journal of a run. -/
def journal (b : GapBuffer) : List (Memory × GapOp) → List JournalEntry
  | [] => []
  | (mem, op) :: rest =>
    ⟨b, op, (op.perform mem b).1, (op.perform mem b).2⟩ :: journal (op.perform mem b).2 rest

/-! ## One operation -/

/-- The mark of the longest text is not below the text, and that of the largest region is the
region. -/
structure UpToDate (b : GapBuffer) : Prop where
  wellFormed : b.WellFormed
  length_le : b.length ≤ b.counters.maxLength
  maxCapacity : b.counters.maxCapacity = b.capacity

theorem counters_placeGap (b : GapBuffer) (pos : Nat) :
    (b.placeGap pos).counters =
      { b.counters with
        gapMoves := b.counters.gapMoves + if pos != b.gapStart then 1 else 0 } := by
  unfold placeGap
  split
  · next hlt => simp [Nat.ne_of_lt hlt]
  · next hge =>
    split
    · next hgt => simp [Nat.ne_of_gt hgt]
    · next hle =>
      obtain rfl : pos = b.gapStart := by omega
      simp

theorem counters_room (hroom : b.Room needed b₁) (hb : b.UpToDate) :
    b₁.counters =
      { b.counters with
        growths := b.counters.growths + if b₁.capacity != b.capacity then 1 else 0
        maxCapacity := max b.counters.maxCapacity b₁.capacity } := by
  have hcap := hroom.capacity_eq hb.wellFormed
  cases hroom with
  | enough hle =>
    have hmax := Nat.max_eq_left (Nat.le_of_eq hb.maxCapacity.symm)
    simp [hmax]
  | grown hlt =>
    have hmore := Nat.ne_of_gt (lt_grownSize hlt)
    rw [if_pos hlt] at hcap
    rw [hcap]
    simp [grow, hmore]

theorem counters_fill (b : GapBuffer) (bytes : List UInt8) :
    (b.fill bytes).counters =
      { b.counters with
        inserts := b.counters.inserts + 1
        maxLength := max b.counters.maxLength (b.fill bytes).length } := rfl

theorem counters_absorb (b : GapBuffer) (count : Nat) :
    (b.absorb count).counters = { b.counters with deletes := b.counters.deletes + 1 } := rfl

/-- Every operation charges the counters for what it did. -/
theorem Effect.charge (h : b.Effect op answer b') (hb : b.UpToDate) :
    b'.counters = JournalEntry.charge b.counters ⟨b, op, answer, b'⟩ := by
  have hlen := Nat.max_eq_left hb.length_le
  have hcap := Nat.max_eq_left (Nat.le_of_eq hb.maxCapacity.symm)
  cases h with
  | refused op e => simp [JournalEntry.charge, hlen, hcap]
  | nothing op hnone =>
    rcases hnone with ⟨pos, hop⟩ | ⟨pos, hop⟩
    · have hdeleted := GapOp.deleted?_of_inserted? b hop
      have hplace := GapOp.place?_of_inserted? b hop
      simp [JournalEntry.charge, hop, hdeleted, hplace, hlen, hcap]
    · have hinserted := GapOp.inserted?_of_deleted? hop
      have hplace := GapOp.place?_of_deleted? hop
      simp [JournalEntry.charge, hop, hinserted, hplace, hlen, hcap]
  | @inserted op pos bytes b₁ hop hne hpos hw hroom =>
    have hb₁ := (hroom.becomes hb.wellFormed).wellFormed
    have hlen₁ := hroom.length_eq hb.wellFormed
    have hfits := hroom.le_gapLength hb.wellFormed
    have hsame := capacity_filled hb₁ (hlen₁ ▸ hpos) hfits
    have hdeleted := GapOp.deleted?_of_inserted? b hop
    have hplace := GapOp.place?_of_inserted? b hop
    rw [counters_fill, counters_placeGap, counters_room hroom hb, hroom.gapStart_eq]
    simp [JournalEntry.charge, hop, hne, hdeleted, hplace, hsame]
  | @deleted op start stop hop hlt hstop hw =>
    have hruns := absorbed_runs hb.wellFormed (Nat.le_of_lt hlt) hstop
    have hsame : ((b.placeGap start).absorb (stop - start)).capacity = b.capacity :=
      capacity_placeGap hb.wellFormed (by omega)
    have hshorter : ((b.placeGap start).absorb (stop - start)).length ≤ b.counters.maxLength := by
      have htext := length_contents hb.wellFormed
      have hmark := hb.length_le
      rw [hruns.length, List.length_take, List.length_drop]
      omega
    have hinserted := GapOp.inserted?_of_deleted? hop
    have hplace := GapOp.place?_of_deleted? hop
    rw [counters_absorb, counters_placeGap]
    simp [JournalEntry.charge, hop, Nat.ne_of_lt hlt, hinserted, hplace, hsame, hcap,
      Nat.max_eq_left hshorter]
  | @moved pos hpos =>
    have hruns := placeGap_runs hb.wellFormed hpos
    have hsame := capacity_placeGap hb.wellFormed hpos
    have hkept : (b.placeGap pos).length = b.length := by
      rw [← length_contents hruns.wellFormed, hruns.contents, List.take_append_drop,
        length_contents hb.wellFormed]
    rw [counters_placeGap]
    simp [JournalEntry.charge, GapOp.inserted?, GapOp.deleted?, GapOp.place?, hsame, hkept, hlen,
      hcap]
  | reserved hroom =>
    have hkept := hroom.length_eq hb.wellFormed
    rw [counters_room hroom hb]
    simp [JournalEntry.charge, GapOp.inserted?, GapOp.deleted?, GapOp.place?, hkept, hlen]
  | locked on =>
    have hkept : (b.setReadOnly on).length = b.length := rfl
    have hsame : (b.setReadOnly on).capacity = b.capacity := rfl
    have hcounters : (b.setReadOnly on).counters = b.counters := rfl
    simp [JournalEntry.charge, GapOp.inserted?, GapOp.deleted?, GapOp.place?, hsame, hkept,
      hcounters, hlen, hcap]
  | @marked op on hop =>
    have hkept : (b.setModified on).length = b.length := rfl
    have hsame : (b.setModified on).capacity = b.capacity := rfl
    have hcounters : (b.setModified on).counters = b.counters := rfl
    obtain ⟨hinserted, hdeleted⟩ := GapOp.edits_of_marks? b hop
    have hplace := GapOp.place?_of_marks? b hop
    simp [JournalEntry.charge, hinserted, hdeleted, hplace, hsame, hkept, hcounters, hlen, hcap]

theorem UpToDate.perform (hb : b.UpToDate) (mem : Memory) (op : GapOp) :
    (op.perform mem b).2.UpToDate := by
  have hcharge := (effect_perform mem hb.wellFormed op).charge hb
  have hle := (regionStep mem hb.wellFormed op).capacity_le
  refine ⟨wellFormed_perform hb.wellFormed mem op, ?_, ?_⟩
  · rw [hcharge]
    exact Nat.le_max_right _ _
  · rw [hcharge]
    show max b.counters.maxCapacity _ = _
    rw [hb.maxCapacity]
    exact Nat.max_eq_right hle

/-! ## Runs of operations -/

theorem UpToDate.run (hb : b.UpToDate) (steps : List (Memory × GapOp)) :
    (b.run steps).2.UpToDate := by
  induction steps generalizing b with
  | nil => exact hb
  | cons step rest ih => exact ih (hb.perform step.1 step.2)

theorem counters_run (hb : b.UpToDate) (steps : List (Memory × GapOp)) :
    (b.run steps).2.counters = (b.journal steps).foldl JournalEntry.charge b.counters := by
  induction steps generalizing b with
  | nil => rfl
  | cons step rest ih =>
    obtain ⟨mem, op⟩ := step
    have hcharge := (effect_perform mem hb.wellFormed op).charge hb
    rw [journal, List.foldl_cons, ← hcharge]
    exact ih (hb.perform mem op)

/-- A counter that goes up by one with each entry of a kind counts the entries of that kind. -/
theorem foldl_charge_countP (count : Counters → Nat) {p : JournalEntry → Bool}
    (hcount : ∀ c e, count (JournalEntry.charge c e) = count c + if p e then 1 else 0)
    (entries : List JournalEntry) (c : Counters) :
    count (entries.foldl JournalEntry.charge c) = count c + entries.countP p := by
  induction entries generalizing c with
  | nil => rfl
  | cons e rest ih =>
    rw [List.foldl_cons, ih, hcount, List.countP_cons]
    omega

theorem maxLength_foldl_charge (entries : List JournalEntry) (c : Counters) :
    (entries.foldl JournalEntry.charge c).maxLength =
      (entries.map fun e => e.after.length).foldl max c.maxLength := by
  induction entries generalizing c with
  | nil => rfl
  | cons e rest ih => exact ih (JournalEntry.charge c e)

/-! ## New buffers -/

/-- The counters of a buffer that nothing was done to. -/
def firstCounters (b : GapBuffer) : Counters := { maxLength := b.length, maxCapacity := b.capacity }

theorem counters_withCapacity {mem : Memory} {capacity : Nat}
    (hb : withCapacity mem capacity = .ok b) : b.counters = b.firstCounters := by
  obtain ⟨hruns, -⟩ := withCapacity_runs hb
  rw [firstCounters, hruns.length, hruns.capacity]
  unfold withCapacity at hb
  split at hb
  · cases hb
    simp
  · cases hb

theorem counters_make {start : GapStart} {mem : Memory} (hb : start.make mem = .ok b) :
    b.counters = b.firstCounters := by
  cases start with
  | fresh =>
    simp only [GapStart.make, fresh] at hb
    split at hb
    · next b' hb' =>
      cases hb
      exact counters_withCapacity hb'
    · cases hb
      rfl
  | withCapacity capacity => exact counters_withCapacity hb
  | ofBytes bytes =>
    obtain ⟨hruns, -⟩ := ofBytes_runs hb
    rw [firstCounters, hruns.length, hruns.capacity]
    simp only [GapStart.make, ofBytes] at hb
    split at hb
    · cases hb
    · split at hb
      · cases hb
        simp
      · cases hb

theorem upToDate_make {start : GapStart} {mem : Memory} (hb : start.make mem = .ok b) :
    b.UpToDate := by
  have hcounters := counters_make hb
  refine ⟨(make_text hb).1, ?_, ?_⟩
  · rw [hcounters]
    exact Nat.le_refl _
  · rw [hcounters]
    rfl

/-- The counters of `last` say about a run that started with `b` what its journal says. -/
structure Ledger (b : GapBuffer) (entries : List JournalEntry) (last : GapBuffer) : Prop where
  inserts : last.counters.inserts = entries.countP JournalEntry.inserts
  deletes : last.counters.deletes = entries.countP JournalEntry.deletes
  growths : last.counters.growths = entries.countP JournalEntry.grows
  gapMoves : last.counters.gapMoves = entries.countP JournalEntry.movesGap
  /-- The longest text, the first one included. -/
  maxLength : (b.length :: entries.map fun e => e.after.length).max? =
    some last.counters.maxLength
  maxCapacity : last.counters.maxCapacity = last.capacity

theorem ledger_run (hb : b.UpToDate) (hcounters : b.counters = b.firstCounters)
    (steps : List (Memory × GapOp)) : Ledger b (b.journal steps) (b.run steps).2 := by
  have hcharged := counters_run hb steps
  rw [hcounters] at hcharged
  constructor
  case inserts =>
    rw [hcharged, foldl_charge_countP Counters.inserts fun _ _ => rfl]
    exact Nat.zero_add _
  case deletes =>
    rw [hcharged, foldl_charge_countP Counters.deletes fun _ _ => rfl]
    exact Nat.zero_add _
  case growths =>
    rw [hcharged, foldl_charge_countP Counters.growths fun _ _ => rfl]
    exact Nat.zero_add _
  case gapMoves =>
    rw [hcharged, foldl_charge_countP Counters.gapMoves fun _ _ => rfl]
    exact Nat.zero_add _
  case maxLength =>
    rw [hcharged, maxLength_foldl_charge, List.max?_cons']
    rfl
  case maxCapacity => exact (hb.run steps).maxCapacity

/-- However a buffer was made and whatever calls were made on it, its own operations or undos and
redos of histories, accepted or not, its counters are the ledger of the operations that were
performed on it. -/
theorem counters_keep_ledger (start : GapStart) (mem : Memory) (b : GapBuffer)
    (hstart : start.make mem = .ok b) (calls : List BufferCall) :
    b.runCalls calls = (b.run (b.performedAll calls)).2 ∧
      Ledger b (b.journal (b.performedAll calls)) (b.runCalls calls) := by
  have hruns := b.runCalls_eq_run calls
  refine ⟨hruns, ?_⟩
  rw [hruns]
  exact ledger_run (upToDate_make hstart) (counters_make hstart) _

def roomForFour : GapBuffer where
  region := .zeroed 4
  gapStart := 0
  gapEnd := 4
  counters := { maxCapacity := 4 }

/-- An insertion, one that fails, an undo that makes three calls, the same undo once more, whose
first call is refused, and a growth. -/
def replayingCalls : List BufferCall :=
  [.perform .ample (.insert 0 [98, 99]), .perform .ample (.insert 5 [97]),
    .replay .ample 1 .back (.run { settings := {} } History.replacingSteps),
    .replay .ample 1 .back (.run { settings := {} } History.replacingSteps),
    .perform .ample (.reserve 5)]

theorem counters_keep_ledger_replaying :
    GapStart.make .ample (.withCapacity 4) = .ok roomForFour ∧
      (roomForFour.performedAll replayingCalls).map Prod.snd = [.insert 0 [98, 99], .insert 5 [97],
        .delete 0 2, .insert 0 [97], .delete 0 1, .delete 0 2, .reserve 5] ∧
      (roomForFour.runCalls replayingCalls).counters.inserts = 2 ∧
      (roomForFour.runCalls replayingCalls).counters.deletes = 2 ∧
      (roomForFour.runCalls replayingCalls).counters.growths = 1 ∧
      (roomForFour.runCalls replayingCalls).counters.gapMoves = 2 ∧
      (roomForFour.runCalls replayingCalls).counters.maxLength = 2 := by
  obtain ⟨-, hledger⟩ :=
    counters_keep_ledger (.withCapacity 4) .ample roomForFour rfl replayingCalls
  refine ⟨rfl, by decide +kernel, ?_, ?_, ?_, ?_, ?_⟩
  · exact hledger.inserts.trans (by decide +kernel)
  · exact hledger.deletes.trans (by decide +kernel)
  · exact hledger.growths.trans (by decide +kernel)
  · exact hledger.gapMoves.trans (by decide +kernel)
  · exact Option.some.inj (hledger.maxLength.symm.trans (by decide +kernel))

end GapBuffer

end TextStore
