import TextStore.Proofs.History.Calls

/-!
# What can be undone and redone is known before

`canUndo` and `canRedo` look at a history as it is, while a replay first closes the open sequence,
which may throw away what could be redone and evict what could be undone.

* `replay_nothing_iff` : a replay finds nothing to do just when it was foretold;
* `ReplayTarget.AcceptsAll` : no call is ever refused. A replay that can be made is accepted then, and
  moves the boundary over one sequence (`replay_accepted`);
* `Exhausts` : the loop that replays as long as it can. It moves the boundary to the end of the
  history (`exhausts_of_closed`, `exhausts`);
* `Predicts` : both predicates foretell what a history does; `reachable_predicts` : so they do after
  every run.
-/

namespace TextStore

variable {σ : Type}

namespace Direction

/-- Whether a replay in this direction is announced. -/
def can (h : History) : Direction → Bool
  | back => h.canUndo
  | on => h.canRedo

/-- The answer when there is nothing to replay. -/
def nothing : Direction → HistoryError
  | back => .noUndo
  | on => .noRedo

/-- The number of committed sequences that are left in this direction. -/
def left (h : History) : Direction → Nat
  | back => h.undoCount
  | on => h.redoCount

/-- The boundary after every sequence in this direction was replayed. -/
def last (h : History) : Direction → Nat
  | back => 0
  | on => h.sequences.length

/-- The sequences that closing leaves in this direction. -/
def groups (o : Outline) : Direction → List Group
  | back => o.undoable
  | on => o.redoable

end Direction

namespace History

variable {h : History}

/-! ## Nothing to replay -/

theorem can_iff (hw : h.WellFormed) (d : Direction) :
    d.can h = true ↔ d.groups h.outline.close ≠ [] := by
  cases d with
  | back => exact canUndo_iff hw
  | on => exact h.canRedo_iff

/-- A replay that fails on the target says so; it does not say that there was nothing to do. -/
theorem issueAll_error_ne {target : ReplayTarget σ} {due : List DueCall} {s s' : σ}
    {e : HistoryError} (heq : issueAll target due s = (.error e, s')) (d : Direction) :
    e ≠ d.nothing := by
  obtain ⟨id, reason, rfl⟩ := issueAll_error heq
  cases d <;> simp [Direction.nothing]

theorem undo_noUndo_iff (o : Outline) (target : ReplayTarget σ) (s : σ) :
    (o.undo target s).1 = .error .noUndo ↔ o.close.undoable = [] := by
  rw [← List.getLast?_eq_none_iff, Outline.undo]
  split
  · next hnone => exact ⟨fun _ => hnone, fun _ => rfl⟩
  · next g hlast =>
    rw [hlast]
    split
    · next e s' heq =>
      refine ⟨fun hsame => ?_, fun hnone => by cases hnone⟩
      cases hsame
      exact absurd rfl (issueAll_error_ne heq .back)
    · simp

theorem redo_noRedo_iff (o : Outline) (target : ReplayTarget σ) (s : σ) :
    (o.redo target s).1 = .error .noRedo ↔ o.close.redoable = [] := by
  rw [Outline.redo]
  split
  · next hnone => exact ⟨fun _ => hnone, fun _ => rfl⟩
  · next g rest hnext =>
    rw [hnext]
    split
    · next e s' heq =>
      refine ⟨fun hsame => ?_, fun hnone => by cases hnone⟩
      cases hsame
      exact absurd rfl (issueAll_error_ne heq .on)
    · simp

/-- Unless memory is refused, a replay finds nothing to do just when none was announced. -/
theorem replay_nothing_iff (hw : h.WellFormed) (d : Direction) (mem : Memory) (now : Nat)
    (target : ReplayTarget σ) (s : σ)
    (hgranted : HistoryStep.isRefusal (d.replay mem now target h s).1 = false) :
    (d.replay mem now target h s).1 = .error d.nothing ↔ d.can h = false := by
  rw [← Bool.not_eq_true, can_iff hw d, Decidable.not_not]
  cases d with
  | back =>
    simp only [Direction.replay] at hgranted ⊢
    rcases outline_undo mem now hw target s with ⟨-, -, heq⟩ | ⟨answer, h', s', heq, -, hundo⟩
    · rw [heq] at hgranted
      cases hgranted
    · have hiff := undo_noUndo_iff h.outline target s
      rw [hundo] at hiff
      rw [heq]
      exact hiff
  | on =>
    simp only [Direction.replay] at hgranted ⊢
    rcases outline_redo mem now hw target s with ⟨-, -, heq⟩ | ⟨answer, h', s', heq, -, hredo⟩
    · rw [heq] at hgranted
      cases hgranted
    · have hiff := redo_noRedo_iff h.outline target s
      rw [hredo] at hiff
      rw [heq]
      exact hiff

end History

/-! ## Targets that accept every call -/

def ReplayTarget.AcceptsAll (target : ReplayTarget σ) : Prop :=
  ∀ (call : ReplayCall) (s : σ), ∃ s', call.issue target s = (.ok (), s')

theorem ReplayTarget.AcceptsAll.issueAll {target : ReplayTarget σ} (haccepts : target.AcceptsAll)
    (due : List DueCall) (s : σ) : ∃ s', issueAll target due s = (.ok (), s') := by
  induction due generalizing s with
  | nil => exact ⟨s, rfl⟩
  | cons first rest ih =>
    obtain ⟨mid, hfirst⟩ := haccepts first.call s
    obtain ⟨s', hrest⟩ := ih mid
    exact ⟨s', by rw [TextStore.issueAll, hfirst]; exact hrest⟩

namespace History

variable {h : History}

/-- What closing leaves when nothing is refused. -/
theorem exists_closed (hw : h.WellFormed) {mem : Memory} (hmem : ∀ n, mem.commit n = true)
    (now : Nat) :
    ∃ h₁, h.closeSequence mem now = (.ok (), h₁) ∧ h₁.WellFormed ∧ h₁.opened = none ∧
      h₁.outline = h.outline.close := by
  rcases closeSequence_cases mem now hw with ⟨-, hno, -⟩ | ⟨h₁, heq, hw₁, houtline⟩
  · rw [hmem] at hno
    cases hno
  · refine ⟨h₁, heq, hw₁, ?_, houtline⟩
    rw [show h₁.opened = h₁.outline.opened from rfl, houtline, Outline.opened_close]

theorem exists_sequence? (hw : h.WellFormed) (d : Direction) (hleft : 0 < d.left h) :
    ∃ seq, d.sequence? h = some seq := by
  have hle := hw.applied_le
  cases d with
  | back =>
    obtain ⟨n, hn⟩ := Nat.exists_eq_add_one_of_ne_zero (Nat.ne_of_gt hleft)
    have happlied : h.applied = n + 1 := hn
    refine ⟨h.sequences[n], ?_⟩
    rw [Direction.sequence?, currentSequence?, happlied]
    exact List.getElem?_eq_getElem _
  | on =>
    have hlt : h.applied < h.sequences.length := Nat.lt_of_sub_pos hleft
    exact ⟨_, List.getElem?_eq_getElem hlt⟩

/-- On a target that accepts every call, a replay over a sequence that closing leaves is accepted and
moves the boundary over it. -/
theorem replay_accepted (hw : h.WellFormed) (d : Direction) {mem : Memory} {now : Nat}
    {h₁ : History} (hclose : h.closeSequence mem now = (.ok (), h₁)) (hw₁ : h₁.WellFormed)
    (hleft : 0 < d.left h₁) {target : ReplayTarget σ} (haccepts : target.AcceptsAll) (s : σ) :
    ∃ cursor applied s', d.replay mem now target h s = (.ok cursor, { h₁ with applied }, s') ∧
      d.Moves h₁.applied applied := by
  obtain ⟨seq, hseq⟩ := exists_sequence? hw₁ d hleft
  obtain ⟨s', hcalls⟩ := haccepts.issueAll (d.due (h₁.operationsOf seq)) s
  obtain ⟨answer, h', hreplay, hconcludes⟩ := replay_concludes hw d target hclose hseq hcalls
  obtain @⟨cursor, applied, -, hmoves⟩ | _ := hconcludes
  exact ⟨cursor, applied, s', hreplay, hmoves⟩

end History

/-! ## Replaying as long as it can -/

/-- The loop that replays in one direction while that is announced. Each round finds its own memory
and clock. It ends in `h'` after `n` rounds, and each of them was accepted. -/
inductive Exhausts (d : Direction) (target : ReplayTarget σ) :
    (rounds : Nat → Memory × Nat) → History → σ → (n : Nat) → (h' : History) → σ → Prop
  | done {rounds : Nat → Memory × Nat} {h : History} {s : σ} (hcan : d.can h = false) :
    Exhausts d target rounds h s 0 h s
  | round {rounds : Nat → Memory × Nat} {h h₁ h' : History} {s s₁ s' : σ} {cursor n : Nat}
    (hcan : d.can h = true)
    (hreplay : d.replay (rounds 0).1 (rounds 0).2 target h s = (.ok cursor, h₁, s₁))
    (hrest : Exhausts d target (fun i => rounds (i + 1)) h₁ s₁ n h' s') :
    Exhausts d target rounds h s (n + 1) h' s'

namespace History

variable {h : History} {rounds : Nat → Memory × Nat} {target : ReplayTarget σ}

/-- With nothing open, a replay is announced while there are sequences left. -/
theorem can_iff_of_closed (hopen : h.opened = none) (d : Direction) :
    d.can h = true ↔ 0 < d.left h := by
  have hops : h.openOperations = [] := by rw [openOperations, hopen]
  cases d with
  | back => simp [Direction.can, Direction.left, canUndo, undoCount, hops]
  | on =>
    rw [Direction.can, Direction.left, canRedo, redoCount, hops, Nat.sub_pos_iff_lt]
    simp

/-- Moving the boundary leaves one sequence less, and the boundary stays in the history. -/
theorem left_of_moves (hw : h.WellFormed) (d : Direction) {applied : Nat}
    (hmoves : d.Moves h.applied applied) (hleft : 0 < d.left h) :
    d.left h = d.left { h with applied } + 1 ∧ applied ≤ h.sequences.length := by
  have hle := hw.applied_le
  cases d with
  | back =>
    simp only [Direction.left, undoCount, Direction.Moves] at hmoves ⊢
    omega
  | on =>
    simp only [Direction.left, redoCount, Direction.Moves] at hmoves hleft ⊢
    omega

theorem last_of_left_eq_zero (hw : h.WellFormed) (d : Direction) (hleft : d.left h = 0) :
    d.last h = h.applied := by
  have hle := hw.applied_le
  cases d with
  | back => exact hleft.symm
  | on => exact Nat.le_antisymm (Nat.sub_eq_zero_iff_le.1 hleft) hle

/-- With nothing open, the loop goes once over each sequence that is left. -/
theorem exhausts_of_closed (hw : h.WellFormed) (hopen : h.opened = none) (d : Direction)
    (haccepts : target.AcceptsAll) (rounds : Nat → Memory × Nat) (s : σ) :
    ∃ s', Exhausts d target rounds h s (d.left h) { h with applied := d.last h } s' := by
  generalize hn : d.left h = n
  induction n generalizing h rounds s with
  | zero =>
    rw [last_of_left_eq_zero hw d hn]
    refine ⟨s, .done ?_⟩
    rw [← Bool.not_eq_true, can_iff_of_closed hopen d]
    omega
  | succ n ih =>
    have hclose : h.closeSequence (rounds 0).1 (rounds 0).2 = (.ok (), h) := by
      rw [closeSequence, hopen]
    have hleft : 0 < d.left h := by omega
    obtain ⟨cursor, applied, s₁, hreplay, hmoves⟩ :=
      replay_accepted hw d hclose hw hleft haccepts s
    obtain ⟨hone, hle⟩ := left_of_moves hw d hmoves hleft
    have hw' : WellFormed { h with applied } := ⟨hle, hw.tiled, hw.heldBytes, hw.phase⟩
    obtain ⟨s', hrest⟩ := ih hw' hopen (fun i => rounds (i + 1)) s₁ (by omega)
    have hlast : d.last { h with applied } = d.last h := by cases d <;> rfl
    rw [hlast] at hrest
    exact ⟨s', .round ((can_iff_of_closed hopen d).2 hleft) hreplay hrest⟩

/-- Where no replay is announced and no recorded operation hides one, no sequence is left. -/
theorem left_of_not_can {d : Direction} (hcan : d.can h = false)
    (hpending : d = .on → h.openOperations = []) : d.left h = 0 ∧ h.openOperations = [] := by
  cases d with
  | back =>
    simp [Direction.can, canUndo] at hcan
    exact ⟨hcan.1, hcan.2⟩
  | on =>
    have hops := hpending rfl
    simp [Direction.can, canRedo, hops] at hcan
    exact ⟨Nat.sub_eq_zero_of_le hcan, hops⟩

/-- On a target that accepts every call the loop ends with the boundary at the end of its direction.
The sequences are those that closing leaves. -/
theorem exhausts (hw : h.WellFormed) (d : Direction) (hpending : d = .on → h.openOperations = [])
    (haccepts : target.AcceptsAll) (hgranted : ∀ i n, (rounds i).1.commit n = true) (s : σ) :
    ∃ n h' s', Exhausts d target rounds h s n h' s' ∧ h'.applied = d.last h' ∧
      h'.groups = h.outline.close.undoable ++ h.outline.close.redoable := by
  rcases hcan : d.can h with _ | _
  · obtain ⟨hleft, hops⟩ := left_of_not_can hcan hpending
    refine ⟨0, h, s, .done hcan, (last_of_left_eq_zero hw d hleft).symm, ?_⟩
    rw [Outline.close_eq_of_nil (o := h.outline) hops]
    exact h.groups_eq
  · obtain ⟨h₁, hclosed, hw₁, hopen, houtline⟩ := exists_closed hw (hgranted 0) (rounds 0).2
    have hleft : 0 < d.left h₁ := by
      rw [← can_iff_of_closed hopen d, can_iff hw₁ d, houtline, Outline.close_close]
      exact (can_iff hw d).1 hcan
    obtain ⟨cursor, applied, s₁, hreplay, hmoves⟩ :=
      replay_accepted hw d hclosed hw₁ hleft haccepts s
    obtain ⟨-, hle⟩ := left_of_moves hw₁ d hmoves hleft
    have hw' : WellFormed { h₁ with applied } := ⟨hle, hw₁.tiled, hw₁.heldBytes, hw₁.phase⟩
    obtain ⟨s', hrest⟩ :=
      exhausts_of_closed hw' hopen d haccepts (fun i => rounds (i + 1)) s₁
    refine ⟨_, _, s', .round hcan hreplay hrest, by cases d <;> rfl, ?_⟩
    rw [← houtline, ← groups_eq]
    rfl

/-! ## Prediction -/

/-- Before the call, `canUndo` and `canRedo` tell what it will find. -/
structure Predicts (h : History) : Prop where
  undo : ∀ {σ : Type} (target : ReplayTarget σ) (s : σ) (mem : Memory) (now : Nat),
    HistoryStep.isRefusal (h.undo mem now target s).1 = false →
    ((h.undo mem now target s).1 = .error .noUndo ↔ h.canUndo = false)
  redo : ∀ {σ : Type} (target : ReplayTarget σ) (s : σ) (mem : Memory) (now : Nat),
    HistoryStep.isRefusal (h.redo mem now target s).1 = false →
    ((h.redo mem now target s).1 = .error .noRedo ↔ h.canRedo = false)
  /-- On a target that accepts every call, undoing while it can ends with everything undone. -/
  undoAll : ∀ {σ : Type} (target : ReplayTarget σ) (s : σ) (rounds : Nat → Memory × Nat),
    target.AcceptsAll → (∀ i n, (rounds i).1.commit n = true) →
    ∃ n h' s', Exhausts .back target rounds h s n h' s' ∧
      h'.undoCount = 0 ∧ h'.redoCount = h'.sequences.length ∧
      h'.groups = h.outline.close.undoable ++ h.outline.close.redoable
  /-- Redoing while it can ends with everything made again, unless recorded operations hide it. -/
  redoAll : ∀ {σ : Type} (target : ReplayTarget σ) (s : σ) (rounds : Nat → Memory × Nat),
    target.AcceptsAll → (∀ i n, (rounds i).1.commit n = true) → h.openOperations = [] →
    ∃ n h' s', Exhausts .on target rounds h s n h' s' ∧
      h'.redoCount = 0 ∧ h'.undoCount = h'.sequences.length ∧
      h'.groups = h.outline.close.undoable ++ h.outline.close.redoable

/-- Whatever was done to a history, what it says can be undone and redone is what an undo and a redo
then find. -/
theorem reachable_predicts (hh : h.Reachable) : h.Predicts := by
  have hw := hh.wellFormed
  constructor
  case undo =>
    intro σ target s mem now hgranted
    exact replay_nothing_iff hw .back mem now target s hgranted
  case redo =>
    intro σ target s mem now hgranted
    exact replay_nothing_iff hw .on mem now target s hgranted
  case undoAll =>
    intro σ target s rounds haccepts hgranted
    obtain ⟨n, h', s', hends, happlied, hgroups⟩ := exhausts hw .back nofun haccepts hgranted s
    have hzero : h'.applied = 0 := happlied
    exact ⟨n, h', s', hends, hzero, by rw [redoCount, hzero, Nat.sub_zero], hgroups⟩
  case redoAll =>
    intro σ target s rounds haccepts hgranted hpending
    obtain ⟨n, h', s', hends, happlied, hgroups⟩ :=
      exhausts hw .on (fun _ => hpending) haccepts hgranted s
    have hall : h'.applied = h'.sequences.length := happlied
    exact ⟨n, h', s', hends, by rw [redoCount, hall, Nat.sub_self], hall, hgroups⟩

/-- One sequence was undone, and then an operation was recorded that hides it. -/
def hidingSteps : List HistoryStep :=
  [.record .ample 0 0 (.insert [97]) 0 1, .record .ample 20 1 (.insert [98]) 1 2,
    .undo .ample 30 CallLog.replayTarget {}, .record .ample 40 1 (.insert [99]) 1 2]

/-- A target that accepts every call. -/
def tolerant : ReplayTarget Unit where
  insertAt _ _ s := (.ok (), s)
  deleteSpan _ _ s := (.ok (), s)

theorem reachable_predicts_hiding :
    (run { settings := { windowMs := 10 } } hidingSteps).redoCount = 1 ∧
      ((run { settings := { windowMs := 10 } } hidingSteps).redo .ample 50 tolerant ()).1 =
        .error .noRedo ∧
      ∃ n h' s', Exhausts .back tolerant (fun i => (.ample, 50 + i))
        (run { settings := { windowMs := 10 } } hidingSteps) () n h' s' ∧ h'.undoCount = 0 := by
  have hpredicts :=
    reachable_predicts (h := run { settings := { windowMs := 10 } } hidingSteps) ⟨_, _, rfl⟩
  have haccepts : tolerant.AcceptsAll := by
    rintro (⟨pos, text⟩ | ⟨start, stop⟩) s
    · exact ⟨s, rfl⟩
    · exact ⟨s, rfl⟩
  refine ⟨by decide +kernel, (hpredicts.redo tolerant () .ample 50 rfl).2 (by decide +kernel), ?_⟩
  obtain ⟨n, h', s', hends, hcount, -⟩ :=
    hpredicts.undoAll tolerant () (fun i => (.ample, 50 + i)) haccepts fun _ _ => rfl
  exact ⟨n, h', s', hends, hcount⟩

end History

end TextStore
