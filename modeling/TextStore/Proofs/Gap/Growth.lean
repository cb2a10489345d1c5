import Mathlib.Algebra.GroupWithZero.Nat
import TextStore.Proofs.Gap.Effects

/-!
# How a region grows, and what growing costs

A growth copies the text into a new region, so its cost is bounded by the old capacity. The new
capacity is at least half as much again, and at least `minGap` more than what was asked for, which
matters while the region is small. So every growth pays for its copy out of the capacity it adds.

* `GapOp.needed` gives the region that an operation needs. It outgrows the present one only for
  `reserve` and for an insertion of at least one byte, since the text itself has its place;
* `RegionStep mem b op` : what an operation does to the region: when it grows, to what size, and that
  the operation is then the growth, which keeps the text and the place of the gap, followed by the
  same operation where there is room for it. `regionStep` : so does every operation;
* `regrown b steps` : the capacities that the growths of a run replaced;
* `sum_regrown_le` : the potential argument, with three times the capacity as the potential;
* `run_grows_geometrically` : all of this for every run on every new buffer.
-/

namespace TextStore

namespace GapOp

variable {b : GapBuffer} {op : GapOp} {pos start stop : Nat} {bytes : List UInt8}

theorem needed_of_inserted? (length : Nat) (h : op.inserted? = some (pos, bytes)) :
    op.needed length = length + bytes.length := by
  cases op <;> cases h <;> rfl

theorem needed_of_deleted? (length : Nat) (h : op.deleted? b = some (start, stop)) :
    op.needed length = 0 := by
  cases op <;> cases h <;> rfl

theorem needed_of_marks? (length : Nat) {on : Bool} (h : op.marks? = some on) :
    op.needed length = 0 := by
  cases op <;> cases h <;> rfl

end GapOp

namespace GapBuffer

variable {b b' : GapBuffer} {op : GapOp} {answer : Except BufferError Unit}

/-! ## One operation -/

/-- Where there is room for them, the bytes go into the gap, whatever memory says. -/
theorem insert_of_room (mem : Memory) (hb : b.WellFormed) {pos : Nat} (hpos : pos ≤ b.length)
    (hw : b.readOnly = false) {bytes : List UInt8} (hne : bytes ≠ [])
    (hfits : b.length + bytes.length ≤ b.capacity) :
    b.insert mem pos bytes = (.ok (), (b.placeGap pos).fill bytes) := by
  have hgap := length_add_gapLength hb
  have hempty : ¬ bytes.isEmpty = true := fun hnil => hne (List.isEmpty_iff.1 hnil)
  rw [insert, if_neg (Nat.not_lt.2 hpos), hw, if_neg Bool.false_ne_true, if_neg hempty, makeRoom,
    if_pos (by omega)]

theorem capacity_filled (hb : b.WellFormed) {pos : Nat} (hpos : pos ≤ b.length)
    {bytes : List UInt8} (hfits : bytes.length ≤ b.gapLength) :
    ((b.placeGap pos).fill bytes).capacity = b.capacity := by
  have hgap := length_add_gapLength hb
  have hlen := length_contents hb
  rw [(filled_runs hb hpos hfits).capacity, List.length_append, List.length_take, List.length_drop]
  omega

/-- `op` makes `b'` of `b` by a growth of the region, with the rest of its work done after it. -/
structure Grows (b : GapBuffer) (op : GapOp) (b' : GapBuffer) : Prop where
  capacity : b'.capacity = max (b.capacity * 3 / 2) (op.needed b.length + minGap)
  gap : minGap ≤ b'.gapLength
  /-- The growth keeps the text. -/
  contents : (b.grow b'.capacity).contents = b.contents
  /-- The growth leaves the gap where it is in the text. -/
  gapStart : (b.grow b'.capacity).gapStart = b.gapStart
  /-- In the grown buffer the operation needs no memory. -/
  rest : ∀ mem : Memory, op.perform mem (b.grow b'.capacity) = (.ok (), b')

theorem grows_insertion {pos : Nat} {bytes : List UInt8} (hb : b.WellFormed)
    (hop : op.inserted? = some (pos, bytes)) (hne : bytes ≠ []) (hpos : pos ≤ b.length)
    (hw : b.readOnly = false) (hlt : b.capacity < b.length + bytes.length) :
    b.Grows op (((b.grow (grownSize b.capacity (b.length + bytes.length))).placeGap pos).fill
      bytes) := by
  have hroom := Room.grown hlt
  generalize hsize : grownSize b.capacity (b.length + bytes.length) = size at hroom ⊢
  have hb₁ := hroom.becomes hb
  have hlen₁ := hroom.length_eq hb
  have hgap₁ := length_add_gapLength hb₁.wellFormed
  have hcap₁ : (b.grow size).capacity = size := by
    rw [hroom.capacity_eq hb, if_pos hlt, hsize]
  have hmin := add_minGap_le_grownSize b.capacity (b.length + bytes.length)
  have hpos₁ : pos ≤ (b.grow size).length := hlen₁ ▸ hpos
  have hfits : bytes.length ≤ (b.grow size).gapLength := by omega
  have hcap := (capacity_filled hb₁.wellFormed hpos₁ hfits).trans hcap₁
  constructor
  case capacity =>
    rw [hcap, GapOp.needed_of_inserted? _ hop, ← hsize, grownSize]
  case gap =>
    rw [(filled_runs hb₁.wellFormed hpos₁ hfits).gapLength]
    omega
  case contents =>
    rw [hcap]
    exact hb₁.contents
  case gapStart => rfl
  case rest =>
    intro mem
    rw [hcap, GapOp.perform_of_inserted? mem _ hop]
    exact insert_of_room mem hb₁.wellFormed hpos₁ hw hne (by omega)

theorem grows_reserve {needed : Nat} (hb : b.WellFormed) (hlt : b.capacity < needed) :
    b.Grows (.reserve needed) (b.grow (grownSize b.capacity needed)) := by
  have hroom := Room.grown hlt
  have hb₁ := hroom.becomes hb
  have hlen₁ := hroom.length_eq hb
  have hgap₁ := length_add_gapLength hb₁.wellFormed
  have hlen := length_le_capacity b
  have hcap := hroom.capacity_eq hb
  rw [if_pos hlt] at hcap
  have hmin := add_minGap_le_grownSize b.capacity needed
  constructor
  case capacity => exact hcap
  case gap => omega
  case contents =>
    rw [hcap]
    exact hb₁.contents
  case gapStart => rfl
  case rest =>
    intro mem
    rw [hcap, GapOp.perform, reserve, if_pos (by omega)]

/-- The region stays and was large enough for an accepted operation, or it grows. -/
theorem Effect.region (h : b.Effect op answer b') (hb : b.WellFormed) :
    (b'.capacity = b.capacity ∧ (answer = .ok () → op.needed b.length ≤ b.capacity)) ∨
    (b.capacity < op.needed b.length ∧ answer = .ok () ∧ b.Grows op b') := by
  have hlen := length_le_capacity b
  cases h with
  | refused op e => exact .inl ⟨rfl, nofun⟩
  | nothing op hnone =>
    refine .inl ⟨rfl, fun _ => ?_⟩
    rcases hnone with ⟨pos, hop⟩ | ⟨pos, hop⟩
    · rw [GapOp.needed_of_inserted? _ hop]
      exact hlen
    · rw [GapOp.needed_of_deleted? _ hop]
      exact Nat.zero_le _
  | inserted op hop hne hpos hw hroom =>
    rw [GapOp.needed_of_inserted? _ hop]
    cases hroom with
    | enough hle =>
      have hgap := length_add_gapLength hb
      exact .inl ⟨capacity_filled hb hpos (by omega), fun _ => hle⟩
    | grown hlt => exact .inr ⟨hlt, rfl, grows_insertion hb hop hne hpos hw hlt⟩
  | deleted op hop hlt hstop hw =>
    refine .inl ⟨capacity_placeGap hb (by omega), fun _ => ?_⟩
    rw [GapOp.needed_of_deleted? _ hop]
    exact Nat.zero_le _
  | moved hpos => exact .inl ⟨capacity_placeGap hb hpos, fun _ => Nat.zero_le _⟩
  | reserved hroom =>
    cases hroom with
    | enough hle => exact .inl ⟨rfl, fun _ => hle⟩
    | grown hlt => exact .inr ⟨hlt, rfl, grows_reserve hb hlt⟩
  | locked on => exact .inl ⟨rfl, fun _ => Nat.zero_le _⟩
  | marked op hop =>
    refine .inl ⟨rfl, fun _ => ?_⟩
    rw [GapOp.needed_of_marks? _ hop]
    exact Nat.zero_le _

theorem Grows.lt (h : b.Grows op b') (hlt : b.capacity < op.needed b.length) :
    b.capacity < b'.capacity := by
  have := Nat.le_max_right (b.capacity * 3 / 2) (op.needed b.length + minGap)
  rw [h.capacity]
  omega

/-- A growth is paid by three times the capacity that it adds, also where half of the old capacity
is rounded down or nothing. -/
theorem Grows.paid (h : b.Grows op b') (hlt : b.capacity < op.needed b.length) :
    b.capacity + 3 * b.capacity ≤ 3 * b'.capacity := by
  have hhalf := Nat.le_max_left (b.capacity * 3 / 2) (op.needed b.length + minGap)
  have hmin := Nat.le_max_right (b.capacity * 3 / 2) (op.needed b.length + minGap)
  rw [← h.capacity] at hhalf hmin
  omega

/-- The operations that can outgrow the region: an accepted `reserve`, and an accepted insertion,
which then has bytes to put in, since the text alone has its place. -/
theorem outgrows_iff (mem : Memory) (b : GapBuffer) (op : GapOp) :
    (op.perform mem b).1 = .ok () ∧ b.capacity < op.needed b.length ↔
      (∃ needed, op = .reserve needed ∧ isRefusal (op.perform mem b).1 = false ∧
        b.capacity < needed) ∨
      ∃ pos bytes, op.inserted? = some (pos, bytes) ∧ bytes ≠ [] ∧
        (op.perform mem b).1 = .ok () ∧ b.capacity < b.length + bytes.length := by
  constructor
  · rintro ⟨hok, hlt⟩
    have hlen := length_le_capacity b
    cases op with
    | insert pos bytes =>
      refine .inr ⟨pos, bytes, rfl, ?_, hok, hlt⟩
      rintro rfl
      rw [GapOp.needed, List.length_nil] at hlt
      omega
    | insertByte pos byte => exact .inr ⟨pos, [byte], rfl, by simp, hok, hlt⟩
    | reserve needed => exact .inl ⟨needed, rfl, by rw [hok]; rfl, hlt⟩
    | _ => exact absurd hlt (Nat.not_lt_zero _)
  · rintro (⟨needed, rfl, hgranted, hlt⟩ | ⟨pos, bytes, hop, -, hok, hlt⟩)
    · refine ⟨?_, hlt⟩
      rw [GapOp.perform] at hgranted ⊢
      rcases reserve_room mem b needed with ⟨n, heq⟩ | ⟨b₁, heq, -⟩
      · rw [heq] at hgranted
        cases hgranted
      · rw [heq]
    · rw [GapOp.needed_of_inserted? _ hop]
      exact ⟨hok, hlt⟩

/-- What an operation does to the region. -/
structure RegionStep (mem : Memory) (b : GapBuffer) (op : GapOp) : Prop where
  /-- The region is never replaced by a smaller one. -/
  capacity_le : b.capacity ≤ (op.perform mem b).2.capacity
  /-- It is replaced exactly by a `reserve` of more than it has, unless memory is refused, and by an
  accepted insertion of bytes that the text leaves no room for. -/
  changes : (op.perform mem b).2.capacity ≠ b.capacity ↔
    (∃ needed, op = .reserve needed ∧ isRefusal (op.perform mem b).1 = false ∧
      b.capacity < needed) ∨
    ∃ pos bytes, op.inserted? = some (pos, bytes) ∧ bytes ≠ [] ∧
      (op.perform mem b).1 = .ok () ∧ b.capacity < b.length + bytes.length
  grows : (op.perform mem b).2.capacity ≠ b.capacity → b.Grows op (op.perform mem b).2

theorem regionStep (mem : Memory) (hb : b.WellFormed) (op : GapOp) : RegionStep mem b op := by
  rcases (effect_perform mem hb op).region hb with ⟨hsame, hneeded⟩ | ⟨hlt, hok, hgrows⟩
  · refine ⟨Nat.le_of_eq hsame.symm, ?_, fun hne => absurd hsame hne⟩
    rw [← outgrows_iff]
    refine ⟨fun hne => absurd hsame hne, ?_⟩
    rintro ⟨hok, hlt⟩
    have := hneeded hok
    omega
  · have hmore := hgrows.lt hlt
    refine ⟨Nat.le_of_lt hmore, ?_, fun _ => hgrows⟩
    rw [← outgrows_iff]
    exact ⟨fun _ => ⟨hok, hlt⟩, fun _ => Nat.ne_of_gt hmore⟩

/-! ## Runs of operations -/

/-- The capacities that the growths of a run replaced, in their order. Each bounds the bytes that
its growth copied. -/
def regrown (b : GapBuffer) : List (Memory × GapOp) → List Nat
  | [] => []
  | (mem, op) :: rest =>
    let b' := (op.perform mem b).2
    if b'.capacity = b.capacity then regrown b' rest else b.capacity :: regrown b' rest

theorem capacity_le_run (hb : b.WellFormed) (steps : List (Memory × GapOp)) :
    b.capacity ≤ (b.run steps).2.capacity := by
  induction steps generalizing b with
  | nil => exact Nat.le_refl _
  | cons step rest ih =>
    have hstep := (regionStep step.1 hb step.2).capacity_le
    exact Nat.le_trans hstep (ih (wellFormed_perform hb step.1 step.2))

/-- Three times the capacity is a potential that pays for every copy. -/
theorem sum_regrown_le (hb : b.WellFormed) (steps : List (Memory × GapOp)) :
    (b.regrown steps).sum + 3 * b.capacity ≤ 3 * (b.run steps).2.capacity := by
  induction steps generalizing b with
  | nil => simp [regrown, run]
  | cons step rest ih =>
    obtain ⟨mem, op⟩ := step
    have hstep := regionStep mem hb op
    have hrest := ih (wellFormed_perform hb mem op)
    rw [regrown]
    show _ ≤ 3 * (run (op.perform mem b).2 rest).2.capacity
    split
    · next hsame =>
      rw [hsame] at hrest
      exact hrest
    · next hchanged =>
      have hlt := ((outgrows_iff mem b op).2 (hstep.changes.1 hchanged)).2
      have hpaid := (hstep.grows hchanged).paid hlt
      rw [List.sum_cons]
      omega

/-- The growths of a run follow one policy and cost no more than a multiple of what they lead to. -/
structure GrowsGeometrically (b : GapBuffer) (steps : List (Memory × GapOp)) : Prop where
  /-- Wherever the run has come, the next operation does to the region what it may. -/
  step : ∀ before mem op after, steps = before ++ (mem, op) :: after →
    RegionStep mem (b.run before).2 op
  monotone : ∀ before middle after, steps = before ++ middle ++ after →
    (b.run before).2.capacity ≤ (b.run (before ++ middle)).2.capacity
  copied : (b.regrown steps).sum ≤ 3 * (b.run steps).2.capacity

/-- However a buffer was made, and whatever is done to it, with or without refusals of memory, its
region grows by the policy only, and the copies of the whole run amount to at most three times the
capacity that it ends with. -/
theorem run_grows_geometrically (start : GapStart) (mem : Memory) (b : GapBuffer)
    (hstart : start.make mem = .ok b) (steps : List (Memory × GapOp)) :
    b.GrowsGeometrically steps := by
  have hb := (make_text hstart).1
  constructor
  case step =>
    intro before mem op after _
    exact regionStep mem (wellFormed_run hb before) op
  case monotone =>
    intro before middle after _
    rw [run_append_snd]
    exact capacity_le_run (wellFormed_run hb before) middle
  case copied =>
    have hpaid := sum_regrown_le hb steps
    omega

/-- A region of one byte is outgrown by an insertion and by two calls of `reserve`: twice the least
gap decides the size and once the factor. A byte that has room and a refused insertion let it be. -/
theorem run_grows_geometrically_oneByte : ∃ b, GapStart.make .ample (.withCapacity 1) = .ok b ∧
    ∃ steps : List (Memory × GapOp), b.regrown steps = [1, 66, 134] ∧
      (b.run steps).2.capacity = 201 ∧ (b.regrown steps).sum ≤ 3 * (b.run steps).2.capacity := by
  have hgrows := run_grows_geometrically (.withCapacity 1) .ample _ rfl
    [(.ample, .insert 0 [97, 98]), (.ample, .insertByte 1 99), (.ample, .reserve 70),
      (.ample, .reserve 135), (.ample, .setReadOnly true), (.ample, .insert 0 [97])]
  exact ⟨_, rfl, _, by decide +kernel, by decide +kernel, hgrows.copied⟩

end GapBuffer

end TextStore
