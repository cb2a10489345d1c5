import TextStore.Proofs.History.Numbering

/-!
# What eviction keeps

* `Affordable limits gs` : the groups keep both limits, on their number and on the length of the texts
  that they record;
* `Longest limits us g kept` : `kept` is the longest affordable suffix of `us ++ [g]` that is not
  empty, or `[g]` when no such suffix is affordable. That is what trimming keeps (`trim_longest`);
* `Bounded limits gs` : the limits hold, except that a single group may exceed them. Trimmed groups
  are bounded, and nothing else adds a group, so the groups of an outline stay so (`within_act`);
* `run_keeps_longest` : after every run, closing keeps the longest affordable suffix and the history
  is bounded.
-/

namespace TextStore

variable {limits : HistorySettings} {gs : List Group}

def Affordable (limits : HistorySettings) (gs : List Group) : Prop :=
  gs.length ≤ limits.maxSequences ∧ Group.textLength gs ≤ limits.maxMemory

/-- `kept` is the longest affordable suffix of `us ++ [g]` that is not empty, or `[g]` if there is
none. -/
inductive Longest (limits : HistorySettings) (us : List Group) (g : Group) (kept : List Group) : Prop
  | affordable (hsuffix : kept <:+ us ++ [g]) (hne : kept ≠ []) (hkept : Affordable limits kept)
      (hlongest : ∀ other, other <:+ us ++ [g] → other ≠ [] → Affordable limits other →
        other <:+ kept)
  | last (hlast : kept = [g])
      (hnone : ∀ other, other <:+ us ++ [g] → other ≠ [] → ¬ Affordable limits other)

/-! ## Trimming -/

/-- Groups in front of others are dropped exactly when all of them together are not affordable. -/
theorem trim_cons (limits : HistorySettings) (g : Group) (hne : gs ≠ []) :
    (Affordable limits (g :: gs) ∧ trim limits (g :: gs) = g :: gs) ∨
      (¬ Affordable limits (g :: gs) ∧ trim limits (g :: gs) = trim limits gs) := by
  have hlen : 1 < (g :: gs).length := by
    have := List.length_pos_iff.2 hne
    rw [List.length_cons]
    omega
  rw [trim, Affordable]
  split
  · exact .inr ⟨by omega, rfl⟩
  · exact .inl ⟨by omega, rfl⟩

theorem trim_longest (limits : HistorySettings) (us : List Group) (g : Group) :
    Longest limits us g (trim limits (us ++ [g])) := by
  induction us with
  | nil =>
    -- a single group stays whatever it holds
    have htrim : trim limits ([] ++ [g]) = [g] := if_neg fun hover => Nat.lt_irrefl 1 hover.1
    have hwhole (other : List Group) (hother : other <:+ [] ++ [g]) (hne : other ≠ []) :
        other = [g] := by
      rcases List.suffix_cons_iff.1 hother with heq | hnil
      · exact heq
      · exact absurd (List.suffix_nil.1 hnil) hne
    rw [htrim]
    by_cases hfits : Affordable limits [g]
    · refine .affordable (List.suffix_refl _) (List.cons_ne_nil _ _) hfits ?_
      intro other hother _ _
      exact hother
    · refine .last rfl fun other hother hne haffordable => hfits ?_
      rwa [hwhole other hother hne] at haffordable
  | cons u us ih =>
    have hne : us ++ [g] ≠ [] := by simp
    rcases trim_cons limits u hne with ⟨hfits, htrim⟩ | ⟨hover, htrim⟩
    · rw [List.cons_append, htrim]
      exact .affordable (List.suffix_refl _) (List.cons_ne_nil _ _) hfits fun _ hother _ _ => hother
    · -- all groups together are too much, so the suffixes that count are those of the rest
      have hrest (other : List Group) (hother : other <:+ u :: us ++ [g])
          (haffordable : Affordable limits other) : other <:+ us ++ [g] := by
        rcases List.suffix_cons_iff.1 hother with rfl | hsuffix
        · exact absurd haffordable hover
        · exact hsuffix
      rw [List.cons_append, htrim]
      cases ih with
      | affordable hsuffix hkept hfits hlongest =>
        refine .affordable (hsuffix.trans (List.suffix_cons u _)) hkept hfits ?_
        intro other hother hother' haffordable
        exact hlongest other (hrest other hother haffordable) hother' haffordable
      | last hlast hnone =>
        refine .last hlast fun other hother hother' haffordable => ?_
        exact hnone other (hrest other hother haffordable) hother' haffordable

/-! ## Bounded groups -/

structure Bounded (limits : HistorySettings) (gs : List Group) : Prop where
  length_le : gs.length ≤ max 1 limits.maxSequences
  /-- Only a single group can hold more than the limit. -/
  textLength_le : gs.length ≠ 1 → Group.textLength gs ≤ limits.maxMemory

theorem bounded_nil (limits : HistorySettings) : Bounded limits [] :=
  ⟨Nat.zero_le _, fun _ => Nat.zero_le _⟩

theorem Longest.bounded {us kept : List Group} {g : Group} (h : Longest limits us g kept) :
    Bounded limits kept := by
  cases h with
  | affordable hsuffix hne hkept hlongest =>
    exact ⟨Nat.le_trans hkept.1 (Nat.le_max_right _ _), fun _ => hkept.2⟩
  | last hlast hnone =>
    subst hlast
    exact ⟨Nat.le_max_left _ _, fun hlen => absurd rfl hlen⟩

namespace Outline

variable {o : Outline} {σ : Type}

/-- The outline has these limits, and its groups are bounded by them. -/
structure Within (limits : HistorySettings) (o : Outline) : Prop where
  settings : o.settings = limits
  groups : Bounded limits (o.undoable ++ o.redoable)

theorem within_close (h : o.Within limits) : o.close.Within limits := by
  obtain ⟨rfl, hgroups⟩ := h
  unfold close
  split
  · exact ⟨rfl, hgroups⟩
  · next s _ =>
    split
    · exact ⟨rfl, hgroups⟩
    · refine ⟨rfl, ?_⟩
      rw [List.append_nil]
      exact (trim_longest o.settings o.undoable _).bounded

theorem within_ensureOpen (h : o.Within limits) (now : Nat) : (o.ensureOpen now).Within limits := by
  unfold ensureOpen
  split
  · exact ⟨h.settings, h.groups⟩
  · split
    · exact ⟨(within_close h).settings, (within_close h).groups⟩
    · exact h

theorem within_record (h : o.Within limits) (now position : Nat) (edit : Edit)
    (cursorBefore cursorAfter : Nat) :
    (o.record now position edit cursorBefore cursorAfter).Within limits := by
  have hopen := within_ensureOpen h now
  unfold record add
  split
  · split
    · exact hopen
    · exact ⟨hopen.settings, hopen.groups⟩
  · exact h

theorem within_act (h : o.Within limits) (step : HistoryStep) : (step.act o).2.Within limits := by
  have hclose := within_close h
  cases step with
  | beginSequence mem now => exact ⟨hclose.settings, hclose.groups⟩
  | closeSequence mem now => exact hclose
  | record mem now position edit cursorBefore cursorAfter =>
    exact within_record h now position edit cursorBefore cursorAfter
  | undo mem now target s =>
    obtain ⟨us, rs, hgroups, heq⟩ := o.undo_moves target s
    show (o.undo target s).2.1.Within limits
    rw [heq]
    exact ⟨hclose.settings, hgroups ▸ hclose.groups⟩
  | redo mem now target s =>
    obtain ⟨us, rs, hgroups, heq⟩ := o.redo_moves target s
    show (o.redo target s).2.1.Within limits
    rw [heq]
    exact ⟨hclose.settings, hgroups ▸ hclose.groups⟩
  | clear => exact ⟨h.settings, bounded_nil limits⟩
  | setEnabled on => exact ⟨h.settings, h.groups⟩

end Outline

namespace History

variable {h : History}

theorem within_perform (hw : h.WellFormed) (hlimits : h.outline.Within limits) (step : HistoryStep) :
    (step.perform h).2.outline.Within limits := by
  cases leaves_perform hw step with
  | made _ houtline => exact houtline ▸ Outline.within_act hlimits step
  | same _ houtline => exact houtline ▸ hlimits
  | opened _ now houtline => exact houtline ▸ Outline.within_ensureOpen hlimits now

theorem within_run (hw : h.WellFormed) (hlimits : h.outline.Within limits)
    (steps : List HistoryStep) : (h.run steps).outline.Within limits := by
  induction steps generalizing h with
  | nil => exact hlimits
  | cons step rest ih =>
    exact ih (precedes_perform hw step).wellFormed (within_perform hw hlimits step)

/-! ## Closing -/

/-- `h'` is `h` with the open sequence `s` committed: of the undoable sequences and `s`, the longest
affordable suffix is left, with ids and operations as they were. -/
structure Commits (limits : HistorySettings) (h : History) (s : OpenSequence) (h' : History) :
    Prop where
  kept : Longest limits (h.groups.take h.applied) { id := s.id, operations := s.operations } h'.groups
  /-- Every sequence that is left can be undone. -/
  undoCount : h'.undoCount = h'.sequences.length
  heldBytes : h'.heldBytes = Group.textLength h'.groups
  opened : h'.opened = none

theorem closeSequence_commits (hw : h.WellFormed) {s : OpenSequence} (hopen : h.opened = some s)
    (hs : s.operations ≠ []) {mem : Memory} (hmem : mem.commit s.operations.length = true)
    (now : Nat) :
    ∃ h', h.closeSequence mem now = (.ok (), h') ∧ Commits h.settings h s h' := by
  have hops : h.openOperations = s.operations := by rw [openOperations, hopen]
  rcases closeSequence_cases mem now hw with ⟨-, hno, -⟩ | ⟨h', heq, hw', houtline⟩
  · rw [hops, hmem] at hno
    cases hno
  · have hclose : h.outline.close =
        { h.outline with
          undoable := trim h.settings
            (h.groups.take h.applied ++ [{ id := s.id, operations := s.operations }])
          redoable := []
          opened := none } := by
      simp only [Outline.close, outline, hopen, if_neg hs]
    rw [hclose] at houtline
    have hgroups : h'.groups = trim h.settings
        (h.groups.take h.applied ++ [{ id := s.id, operations := s.operations }]) := by
      rw [h'.groups_eq, houtline, List.append_nil]
    have hundoable : h'.outline.undoable = h'.groups := by
      rw [h'.groups_eq, houtline, List.append_nil]
    refine ⟨h', heq, ?_, ?_, heldBytes_eq hw', ?_⟩
    · rw [hgroups]
      exact trim_longest _ _ _
    · rw [undoCount, ← length_undoable hw', hundoable, length_groups]
    · exact congrArg Outline.opened houtline

/-- Whatever was done to a new history: closing an open sequence with operations keeps the longest
affordable suffix of the undoable sequences and it, and the limits hold of what can be undone and
redone together, unless that is a single sequence. The bytes that count are those of the texts. -/
theorem run_keeps_longest (settings : HistorySettings) (steps : List HistoryStep) :
    (∀ s mem now, (run { settings } steps).opened = some s → s.operations ≠ [] →
      mem.commit s.operations.length = true →
      ∃ h', (run { settings } steps).closeSequence mem now = (.ok (), h') ∧
        Commits settings (run { settings } steps) s h') ∧
      (run { settings } steps).sequences.length ≤ max 1 settings.maxSequences ∧
      (run { settings } steps).heldBytes = Group.textLength (run { settings } steps).groups ∧
      ((run { settings } steps).sequences.length ≠ 1 →
        (run { settings } steps).heldBytes ≤ settings.maxMemory) := by
  have hw := (precedes_run (wellFormed_new settings) steps).wellFormed
  have hlimits := within_run (wellFormed_new settings) ⟨rfl, bounded_nil settings⟩ steps
  have hbounded := hlimits.groups
  rw [← groups_eq] at hbounded
  refine ⟨?_, ?_, heldBytes_eq hw, ?_⟩
  · intro s mem now hopen hs hmem
    have hcommits := closeSequence_commits hw hopen hs hmem now
    rwa [show (run { settings } steps).settings = settings from hlimits.settings] at hcommits
  · rw [← length_groups]
    exact hbounded.length_le
  · intro hlen
    rw [heldBytes_eq hw]
    exact hbounded.textLength_le (by rwa [length_groups])

/-- Three sequences of two, one and one bytes, and an open one of two. -/
def crowdedSteps : List HistoryStep :=
  [.record .ample 0 0 (.insert [97, 98]) 0 2, .record .ample 20 2 (.insert [99]) 2 3,
    .record .ample 40 3 (.delete [99]) 3 2, .record .ample 60 0 (.replace [97] [100]) 2 1]

/-- Limits of which the four sequences exceed the one on their number only, or the one on their text
only. -/
def tightLimits : List HistorySettings :=
  [{ maxSequences := 3, maxMemory := 6, windowMs := 10 },
    { maxSequences := 4, maxMemory := 5, windowMs := 10 }]

/-- Either limit alone makes the oldest sequence go, and the other three stay. -/
theorem run_keeps_longest_crowded : ∀ limits ∈ tightLimits, ∃ s h',
    (run { settings := limits } crowdedSteps).opened = some s ∧ s.operations ≠ [] ∧
      (run { settings := limits } crowdedSteps).closeSequence .ample 61 = (.ok (), h') ∧
      h'.sequences.map Sequence.id = [2, 3, 4] ∧
      Commits limits (run { settings := limits } crowdedSteps) s h' := by
  intro limits hlimits
  have hcrowded : ∃ s, (run { settings := limits } crowdedSteps).opened = some s ∧
      s.operations ≠ [] ∧
      ((run { settings := limits } crowdedSteps).closeSequence .ample 61).2.sequences.map
        Sequence.id = [2, 3, 4] := by
    simp only [tightLimits, List.mem_cons, List.not_mem_nil, or_false] at hlimits
    obtain rfl | rfl := hlimits
    · exact ⟨_, rfl, by decide +kernel, by decide +kernel⟩
    · exact ⟨_, rfl, by decide +kernel, by decide +kernel⟩
  obtain ⟨s, hopen, hs, hids⟩ := hcrowded
  obtain ⟨h', heq, hcommits⟩ := (run_keeps_longest limits crowdedSteps).1 s .ample 61 hopen hs rfl
  rw [heq] at hids
  exact ⟨s, h', hopen, hs, heq, hids, hcommits⟩

end History

end TextStore
