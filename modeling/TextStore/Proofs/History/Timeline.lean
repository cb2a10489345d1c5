import TextStore.Proofs.History.Outline

/-!
# The texts between the groups of an outline

`R op t t'` stands for a reason why `op` led from the text `t` to the text `t'`.

* `Leads R ops t t'` : the operations led, one after the other, from `t` to `t'`;
* `Timeline R gs T` : no group is empty, and the group number `i` led from `T i` to `T (i + 1)`;
* `Outline.Tracks R o T t` : the groups of `o` have the timeline `T`, and the open group led from
  the text at the boundary to `t`. Closing, recording, moving the boundary and forgetting keep this
  up (`Tracks.close`, `Tracks.record`, `Tracks.back`, `Tracks.on`, `Tracks.clear`).
-/

namespace TextStore

/-- Why an operation led from the first text to the second. -/
abbrev Transition := Operation → List UInt8 → List UInt8 → Prop

variable {R R' : Transition} {t t' t'' : List UInt8}

/-! ## Operations in a row -/

/-- The operations led, one after the other, from the first text to the second. -/
def Leads (R : Transition) : List Operation → List UInt8 → List UInt8 → Prop
  | [], t, t' => t = t'
  | op :: rest, t, t' => ∃ mid, R op t mid ∧ Leads R rest mid t'

namespace Leads

theorem append {ops ops' : List Operation} (h : Leads R ops t t') (h' : Leads R ops' t' t'') :
    Leads R (ops ++ ops') t t'' := by
  induction ops generalizing t with
  | nil =>
    obtain rfl : t = t' := h
    exact h'
  | cons op rest ih =>
    obtain ⟨mid, hop, hrest⟩ := h
    exact ⟨mid, hop, ih hrest⟩

theorem single {op : Operation} (h : R op t t') : Leads R [op] t t' := ⟨t', h, rfl⟩

theorem mono (hR : ∀ {op t t'}, R op t t' → R' op t t') {ops : List Operation}
    (h : Leads R ops t t') : Leads R' ops t t' := by
  induction ops generalizing t with
  | nil => exact h
  | cons op rest ih =>
    obtain ⟨mid, hop, hrest⟩ := h
    exact ⟨mid, hR hop, ih hrest⟩

theorem head {ops : List Operation} (h : Leads R ops t t') {op : Operation}
    (hop : ops.head? = some op) : ∃ mid, R op t mid := by
  cases ops with
  | nil => cases hop
  | cons first rest =>
    obtain ⟨mid, hfirst, -⟩ := h
    cases hop
    exact ⟨mid, hfirst⟩

theorem getLast {ops : List Operation} (h : Leads R ops t t') {op : Operation}
    (hop : ops.getLast? = some op) : ∃ mid, R op mid t' := by
  induction ops generalizing t with
  | nil => cases hop
  | cons first rest ih =>
    obtain ⟨mid, hfirst, hrest⟩ := h
    cases rest with
    | nil =>
      obtain rfl : mid = t' := hrest
      cases hop
      exact ⟨t, hfirst⟩
    | cons second rest => exact ih hrest (by rwa [List.getLast?_cons_cons] at hop)

end Leads

/-! ## Groups in a row -/

/-- The group number `i` has operations, which led from `T i` to `T (i + 1)`. -/
def Timeline (R : Transition) (gs : List Group) (T : Nat → List UInt8) : Prop :=
  ∀ i g, gs[i]? = some g → g.operations ≠ [] ∧ Leads R g.operations (T i) (T (i + 1))

namespace Timeline

variable {gs gs' : List Group} {T : Nat → List UInt8}

theorem nil (T : Nat → List UInt8) : Timeline R [] T := fun _ _ hg => by cases hg

theorem mono (hR : ∀ {op t t'}, R op t t' → R' op t t') (h : Timeline R gs T) :
    Timeline R' gs T :=
  fun i g hg => ⟨(h i g hg).1, (h i g hg).2.mono hR⟩

theorem left (h : Timeline R (gs ++ gs') T) : Timeline R gs T := by
  intro i g hg
  refine h i g ?_
  rw [List.getElem?_append_left (List.getElem?_eq_some_iff.1 hg).1]
  exact hg

theorem drop (h : Timeline R gs T) (n : Nat) : Timeline R (gs.drop n) fun i => T (n + i) := by
  intro i g hg
  rw [List.getElem?_drop] at hg
  exact h (n + i) g hg

/-- A group at the end that leads to `t` puts `t` at the end. -/
theorem snoc {g : Group} (h : Timeline R gs T) (hne : g.operations ≠ [])
    (hg : Leads R g.operations (T gs.length) t) :
    Timeline R (gs ++ [g]) fun i => if i ≤ gs.length then T i else t := by
  intro i g' hg'
  rcases Nat.lt_trichotomy i gs.length with hlt | rfl | hgt
  · rw [List.getElem?_append_left hlt] at hg'
    simp only [if_pos (Nat.le_of_lt hlt), if_pos (Nat.succ_le_of_lt hlt)]
    exact h i g' hg'
  · rw [List.getElem?_concat_length] at hg'
    cases hg'
    simp only [if_pos (Nat.le_refl _), if_neg (Nat.not_succ_le_self _)]
    exact ⟨hne, hg⟩
  · rw [List.getElem?_eq_none (by rw [List.length_append, List.length_singleton]; omega)] at hg'
    cases hg'

end Timeline

/-! ## Outlines -/

namespace Outline

variable {o : Outline} {T : Nat → List UInt8}

/-- Edits are recorded, the groups have the timeline `T`, and the open group led from the text at
the boundary to `t`. -/
structure Tracks (R : Transition) (o : Outline) (T : Nat → List UInt8) (t : List UInt8) : Prop where
  enabled : o.enabled = true
  committed : Timeline R (o.undoable ++ o.redoable) T
  pending : Leads R o.openOperations (T o.undoable.length) t

namespace Tracks

theorem mono (hR : ∀ {op t t'}, R op t t' → R' op t t') (h : o.Tracks R T t) :
    o.Tracks R' T t :=
  ⟨h.enabled, h.committed.mono hR, h.pending.mono hR⟩

theorem of_nil (hon : o.enabled = true) (h : Timeline R (o.undoable ++ o.redoable) T)
    (ho : o.openOperations = []) (ht : T o.undoable.length = t) : o.Tracks R T t :=
  ⟨hon, h, ho ▸ ht⟩

theorem clear (hon : o.enabled = true) (t : List UInt8) : o.clear.Tracks R (fun _ => t) t :=
  .of_nil hon (.nil _) rfl rfl

/-- With nothing recorded in an open group, the text is the one at the boundary. -/
theorem eq_of_nil (h : o.Tracks R T t) (ho : o.openOperations = []) : T o.undoable.length = t := by
  have hpending := h.pending
  rw [ho] at hpending
  exact hpending

/-- Closing keeps the timeline when nothing was recorded. -/
theorem close (h : o.Tracks R T t) :
    ∃ T', (o.openOperations = [] → T' = T) ∧ o.close.Tracks R T' t := by
  by_cases ho : o.openOperations = []
  · refine ⟨T, fun _ => rfl, ?_⟩
    rw [close_eq_of_nil ho]
    exact .of_nil h.enabled h.committed rfl (h.eq_of_nil ho)
  · obtain ⟨id, n, hn, heq⟩ := close_eq_of_ne_nil ho
    -- the evicted groups take the oldest texts with them
    have hsnoc := h.committed.left.snoc (g := { id, operations := o.openOperations }) ho h.pending
    have hkept := hsnoc.drop n
    rw [← List.append_nil (List.drop n _)] at hkept
    rw [heq]
    refine ⟨_, fun hnil => absurd hnil ho, h.enabled, hkept, ?_⟩
    have hlast : n + (o.undoable.length + 1 - n) = o.undoable.length + 1 := by omega
    simp only [List.length_drop, List.length_append, List.length_singleton, hlast,
      if_neg (Nat.not_succ_le_self _)]
    rfl

theorem start (h : o.Tracks R T t) (ho : o.openOperations = []) (now : Nat) :
    (o.start now).Tracks R T t :=
  .of_nil h.enabled h.committed rfl (h.eq_of_nil ho)

theorem ensureOpen (h : o.Tracks R T t) (now : Nat) : ∃ T', (o.ensureOpen now).Tracks R T' t := by
  unfold Outline.ensureOpen
  split
  · next hopen => exact ⟨T, h.start (openOperations_of_none hopen) now⟩
  · split
    · obtain ⟨T', -, h'⟩ := h.close
      exact ⟨T', h'.start o.openOperations_close now⟩
    · exact ⟨T, h⟩

/-- An operation that leads on from the text is recorded behind the others. -/
theorem record (h : o.Tracks R T t) {now position : Nat} {edit : Edit}
    {cursorBefore cursorAfter : Nat}
    (hop : R (o.newOperation now position edit cursorBefore cursorAfter) t t') :
    ∃ T', (o.record now position edit cursorBefore cursorAfter).Tracks R T' t' := by
  obtain ⟨T', h'⟩ := h.ensureOpen now
  obtain ⟨s, hs⟩ := o.opened_ensureOpen now
  refine ⟨T', ?_⟩
  rw [Outline.record, if_pos h.enabled, add, hs]
  refine ⟨h'.enabled, h'.committed, ?_⟩
  have hpending := h'.pending
  rw [openOperations, hs] at hpending
  refine hpending.append (.single ?_)
  rw [newOperation, nextOperationId_ensureOpen]
  exact hop

/-- The last undoable group leads to the text at the boundary. -/
theorem current (h : o.Tracks R T t) {g : Group} (hg : o.undoable.getLast? = some g) :
    g.operations ≠ [] ∧
      Leads R g.operations (T (o.undoable.length - 1)) (T o.undoable.length) := by
  have hne : o.undoable ≠ [] := by
    intro hnil
    rw [hnil] at hg
    cases hg
  have hlen : o.undoable.length - 1 + 1 = o.undoable.length := by
    have := List.length_pos_iff.2 hne
    omega
  rw [List.getLast?_eq_getElem?] at hg
  have hlead := h.committed.left _ _ hg
  rwa [hlen] at hlead

/-- The boundary moves back over the last undoable group. -/
theorem back (h : o.Tracks R T t) (ho : o.openOperations = []) {g : Group}
    (hg : o.undoable.getLast? = some g) :
    { o with undoable := o.undoable.dropLast, redoable := g :: o.redoable }.Tracks R T
      (T (o.undoable.length - 1)) := by
  obtain ⟨rest, hrest⟩ := List.getLast?_eq_some_iff.1 hg
  have hcommitted := h.committed
  rw [hrest, List.append_assoc] at hcommitted
  refine .of_nil h.enabled ?_ ho ?_
  · simp only [hrest, List.dropLast_concat]
    exact hcommitted
  · simp only [List.length_dropLast]

/-- The first redoable group leads on from the text at the boundary. -/
theorem next (h : o.Tracks R T t) {g : Group} {rest : List Group} (hg : o.redoable = g :: rest) :
    g.operations ≠ [] ∧
      Leads R g.operations (T o.undoable.length) (T (o.undoable.length + 1)) := by
  refine h.committed _ _ ?_
  rw [List.getElem?_append_right (Nat.le_refl _), Nat.sub_self, hg]
  rfl

/-- The boundary moves on over the first redoable group. -/
theorem on (h : o.Tracks R T t) (ho : o.openOperations = []) {g : Group} {rest : List Group}
    (hg : o.redoable = g :: rest) :
    { o with undoable := o.undoable ++ [g], redoable := rest }.Tracks R T
      (T (o.undoable.length + 1)) := by
  have hcommitted := h.committed
  rw [hg, List.append_cons] at hcommitted
  refine .of_nil h.enabled hcommitted ho ?_
  simp only [List.length_append, List.length_singleton]

end Tracks

end Outline

end TextStore
