import TextStore.Proofs.Store.Table

/-!
# Removing stale buffers

Stale buffers are removed one at a time, and the current id may be handed to a neighbour that goes a
moment later. What comes of it does not show that:

* `survives` : which buffers stay, the named ones and those used recently;
* `heir? survivors id` : the survivor with this id, else the next one after it, else the last one
  before it. It does not change when a buffer that does not survive hands over to its neighbour
  (`heir?_neighbour`);
* `Cleans` : only the survivors are left, as they were, the counts account for the others, and the
  heir of the current buffer is current;
* `run_cleans` : so it is after every run of operations, at any time and for any age.
-/

namespace TextStore.Store

variable {st st' : Store} {sb : StoredBuffer} {pre post : List StoredBuffer}

/-- Whether a buffer has a name or was last used at most `maxAge` milliseconds ago; one that is used
after `now` counts as used just now. -/
def survives (now maxAge : Nat) (sb : StoredBuffer) : Bool :=
  sb.name.isSome || decide (now - sb.lastAccess ≤ maxAge)

/-- The survivor with this id, else the first one created after it, else the last one created before
it. -/
def heir? (survivors : List StoredBuffer) (id : Nat) : Option StoredBuffer :=
  (survivors.find? fun sb => sb.id == id).or
    ((survivors.find? fun sb => decide (id < sb.id)).or
      (survivors.reverse.find? fun sb => decide (sb.id < id)))

structure Cleans (p : StoredBuffer → Bool) (st : Store) (removed : Nat) (st' : Store) : Prop where
  buffers : st'.buffers = st.buffers.filter p
  size : st'.size + removed = st.size
  scratchCount : st'.scratchCount + removed = st.scratchCount
  nextId : st'.nextId = st.nextId
  settings : st'.settings = st.settings
  current : st'.current =
    st.current.bind fun id => (heir? (st.buffers.filter p) id).map StoredBuffer.id

theorem Consistent.isStale_eq (hc : st.Consistent) (hsb : sb ∈ st.buffers) (now maxAge : Nat) :
    isStale now maxAge sb = !survives now maxAge sb := by
  have hage : decide (maxAge < sb.idleFor now) = !decide (now - sb.lastAccess ≤ maxAge) := by
    rw [← decide_not, decide_eq_decide, Nat.not_le, StoredBuffer.idleFor]
  rw [isStale, survives, (hc.proper sb hsb).isScratch_eq, hage]
  cases sb.name <;> rfl

/-! ## Heirs -/

theorem find?_eq_head? {α : Type} {p : α → Bool} {l : List α} (h : ∀ a ∈ l, p a = true) :
    l.find? p = l.head? := by
  rw [← List.head?_filter, List.filter_eq_self.2 h]

/-- The heir of a buffer, told by what stands before and after it. -/
theorem heir?_eq (p : StoredBuffer → Bool) (hpre : ∀ other ∈ pre, other.id < sb.id)
    (hpost : ∀ other ∈ post, sb.id < other.id) :
    heir? ((pre ++ sb :: post).filter p) sb.id =
      if p sb then some sb else (post.filter p).head?.or (pre.filter p).getLast? := by
  have hbefore (other : StoredBuffer) (hother : other ∈ pre.filter p) : other.id < sb.id :=
    hpre other (List.mem_filter.1 hother).1
  have hafter (other : StoredBuffer) (hother : other ∈ post.filter p) : sb.id < other.id :=
    hpost other (List.mem_filter.1 hother).1
  -- each of the three searches sees the survivors on its own side only
  have hself : (pre.filter p).find? (fun other => other.id == sb.id) = none := by
    rw [List.find?_eq_none]
    intro other hother
    have := hbefore other hother
    simp only [beq_iff_eq]
    omega
  have hself' : (post.filter p).find? (fun other => other.id == sb.id) = none := by
    rw [List.find?_eq_none]
    intro other hother
    have := hafter other hother
    simp only [beq_iff_eq]
    omega
  have hnext : (pre.filter p).find? (fun other => decide (sb.id < other.id)) = none := by
    rw [List.find?_eq_none]
    intro other hother
    have := hbefore other hother
    simp only [decide_eq_true_eq]
    omega
  have hlast : (post.filter p).reverse.find? (fun other => decide (other.id < sb.id)) = none := by
    rw [List.find?_eq_none]
    intro other hother
    have := hafter other (List.mem_reverse.1 hother)
    simp only [decide_eq_true_eq]
    omega
  rw [heir?, List.filter_append]
  by_cases hp : p sb = true
  · rw [if_pos hp, List.filter_cons_of_pos hp, List.find?_append, hself, Option.none_or,
      List.find?_cons_of_pos (by simp), Option.some_or]
  · rw [if_neg hp, List.filter_cons_of_neg hp, List.find?_append, hself, hself', Option.none_or,
      Option.none_or, List.find?_append, hnext, Option.none_or,
      find?_eq_head? (l := post.filter p) fun other hother => decide_eq_true (hafter other hother),
      List.reverse_append, List.find?_append, hlast, Option.none_or,
      find?_eq_head? (l := (pre.filter p).reverse) fun other hother =>
        decide_eq_true (hbefore other (List.mem_reverse.1 hother)), List.head?_reverse]

theorem Consistent.id_lt (hc : st.Consistent) (hsplit : st.buffers = pre ++ sb :: post) :
    (∀ other ∈ pre, other.id < sb.id) ∧ ∀ other ∈ post, sb.id < other.id := by
  have hids := hc.numbered.increasing
  rw [ids, hsplit, List.map_append, List.map_cons, List.pairwise_append, List.pairwise_cons] at hids
  obtain ⟨-, ⟨hafter, -⟩, hbefore⟩ := hids
  exact ⟨fun other hother => hbefore _ (List.mem_map_of_mem hother) _ List.mem_cons_self,
    fun other hother => hafter _ (List.mem_map_of_mem hother)⟩

/-- The first buffer that does not survive has the heir of the neighbour it hands over to. -/
theorem heir?_neighbour {p : StoredBuffer → Bool} (hc : st.Consistent)
    (hsplit : st.buffers = pre ++ sb :: post) (hsb : p sb = false)
    (hpre : ∀ other ∈ pre, p other = true) (hc' : st'.Consistent)
    (hbuffers : st'.buffers = pre ++ post) :
    heir? (st'.buffers.filter p) sb.id =
      (post.head?.or pre.getLast?).bind fun other => heir? (st'.buffers.filter p) other.id := by
  have hsame : st'.buffers.filter p = (pre ++ sb :: post).filter p := by
    rw [hbuffers, List.filter_append, List.filter_append, List.filter_cons_of_neg (by simp [hsb])]
  have hgone : heir? (st'.buffers.filter p) sb.id = (post.filter p).head?.or pre.getLast? := by
    rw [hsame, heir?_eq p (hc.id_lt hsplit).1 (hc.id_lt hsplit).2, if_neg (by simp [hsb]),
      List.filter_eq_self.2 hpre]
  rw [hgone]
  cases post with
  | cons next post =>
    obtain ⟨hbefore, hafter⟩ := hc'.id_lt hbuffers
    rw [List.head?_cons, Option.some_or, Option.bind_some, hbuffers, heir?_eq p hbefore hafter,
      List.filter_eq_self.2 hpre]
    by_cases hp : p next = true
    · rw [if_pos hp, List.filter_cons_of_pos hp, List.head?_cons, Option.some_or]
    · rw [if_neg hp, List.filter_cons_of_neg hp]
  | nil =>
    rw [List.filter_nil, List.head?_nil, Option.none_or]
    cases hlast : pre.getLast? with
    | none => rfl
    | some last =>
      -- the last buffer before it survives, so it is its own heir
      obtain ⟨front, rfl⟩ := List.getLast?_eq_some_iff.1 hlast
      rw [List.append_nil] at hbuffers
      obtain ⟨hbefore, hafter⟩ := hc'.id_lt hbuffers
      rw [Option.bind_some, hbuffers, heir?_eq p hbefore hafter,
        if_pos (hpre last (List.mem_append_right _ List.mem_cons_self))]

/-! ## Removing one after the other -/

theorem Consistent.discard_eq (hc : st.Consistent) (hsplit : st.buffers = pre ++ sb :: post) :
    st.discard sb.id =
      { st with
        buffers := pre ++ post
        current :=
          if st.current = some sb.id then (post.head?.or pre.getLast?).map StoredBuffer.id
          else st.current
        scratchCount := if sb.isScratch then st.scratchCount - 1 else st.scratchCount } := by
  rw [Store.discard, hc.indexOf?_eq hsplit]
  exact removeAt_eq hsplit

/-- When every buffer survives, the store is clean as it is. -/
theorem Consistent.cleans_self {p : StoredBuffer → Bool} (hc : st.Consistent)
    (hall : ∀ sb ∈ st.buffers, p sb = true) : Cleans p st 0 st := by
  have hfilter := List.filter_eq_self.2 hall
  refine ⟨hfilter.symm, rfl, rfl, rfl, rfl, ?_⟩
  rw [hfilter]
  cases hcurrent : st.current with
  | none => rfl
  | some id =>
    obtain ⟨sb, hsb, rfl⟩ := List.mem_map.1 (hc.current_mem id hcurrent)
    have hfind : (st.buffers.find? fun other => other.id == sb.id) = some sb := hc.find?_eq hsb
    rw [Option.bind_some, heir?, hfind, Option.some_or, Option.map_some]

/-- The oldest buffer that does not survive is removed first. -/
theorem Cleans.of_discard {p : StoredBuffer → Bool} {removed : Nat} (hc : st.Consistent)
    (hsplit : st.buffers = pre ++ sb :: post) (hsb : p sb = false)
    (hpre : ∀ other ∈ pre, p other = true) (hscratch : sb.isScratch = true)
    (hrest : Cleans p (st.discard sb.id) removed st') : Cleans p st (removed + 1) st' := by
  have hc₁ := hc.discard sb.id
  have hmem : sb ∈ st.buffers := by simp [hsplit]
  have hpos := hc.scratch_pos hmem hscratch
  have heq := hc.discard_eq hsplit
  have hbuffers : (st.discard sb.id).buffers = pre ++ post := by rw [heq]
  have hheir := heir?_neighbour hc hsplit hsb hpre hc₁ hbuffers
  have hfilter : (st.discard sb.id).buffers.filter p = st.buffers.filter p := by
    rw [hbuffers, hsplit, List.filter_append, List.filter_append,
      List.filter_cons_of_neg (by simp [hsb])]
  refine ⟨?_, ?_, ?_, ?_, ?_, ?_⟩
  · rw [hrest.buffers, hfilter]
  · have hsize := hrest.size
    simp only [Store.size, hbuffers, hsplit, List.length_append, List.length_cons] at hsize ⊢
    omega
  · have hcount := hrest.scratchCount
    rw [heq] at hcount
    simp only [hscratch, if_true] at hcount
    omega
  · rw [hrest.nextId, heq]
  · rw [hrest.settings, heq]
  · rw [hrest.current, hfilter]
    rw [hfilter] at hheir
    by_cases hcurrent : st.current = some sb.id
    · rw [hcurrent, Option.bind_some, hheir, heq]
      simp only [hcurrent, if_true, Option.bind_map, Option.map_bind]
      rfl
    · rw [heq]
      simp only [hcurrent, if_false]

theorem Consistent.cleans_foldl (hc : st.Consistent) {now maxAge : Nat} {stale : List StoredBuffer}
    (hstale : st.buffers.filter (isStale now maxAge) = stale) :
    Cleans (survives now maxAge) st stale.length
      ((stale.map StoredBuffer.id).foldl Store.discard st) := by
  induction stale generalizing st with
  | nil =>
    refine hc.cleans_self fun sb hsb => ?_
    have hfresh := List.filter_eq_nil_iff.1 hstale sb hsb
    rw [hc.isStale_eq hsb] at hfresh
    simpa using hfresh
  | cons sb rest ih =>
    obtain ⟨pre, post, hsplit, hfresh, hsb, hrest⟩ := List.filter_eq_cons_iff.1 hstale
    have hmem (other : StoredBuffer) (hother : other ∈ pre) : other ∈ st.buffers := by
      rw [hsplit]
      exact List.mem_append_left _ hother
    have hbuffers : (st.discard sb.id).buffers = pre ++ post := by rw [hc.discard_eq hsplit]
    have hscratch : sb.isScratch = true := by
      rw [isStale, Bool.and_eq_true] at hsb
      exact hsb.1
    refine .of_discard hc hsplit ?_ (fun other hother => ?_) hscratch (ih (hc.discard sb.id) ?_)
    · rw [hc.isStale_eq (by simp [hsplit])] at hsb
      simpa using hsb
    · have hother' := hfresh other hother
      rw [hc.isStale_eq (hmem other hother)] at hother'
      simpa using hother'
    · rw [hbuffers, List.filter_append, List.filter_eq_nil_iff.2 hfresh, List.nil_append, hrest]

/-- After every run of operations on a new store, at any time and for any age: removing stale buffers
leaves just those that have a name or were used within that age, in order and as they were, answers
how many are gone, and makes the heir of the current buffer current. -/
theorem run_cleans (settings : Settings) (steps : List StoreStep) (now maxAge : Nat) :
    Cleans (survives now maxAge) (run { settings } steps)
      ((run { settings } steps).removeStale now maxAge).1
      ((run { settings } steps).removeStale now maxAge).2 := by
  have hc := (consistent_new settings).run steps
  simp only [removeStale, List.length_map]
  exact hc.cleans_foldl rfl

/-- Two scratch buffers and a named one, made one after the other, and a scratch buffer that is used
much later. -/
def agingBuffers : Store :=
  run { settings := { initialCapacity := 4 } }
    [.createScratch .ample 0, .createScratch .ample 10, .create .ample 20 "notes",
      .createScratch .ample 20, .switchTo 90 4, .switchTo 30 1]

/-- The current buffer is stale, and so is the one after it, to which it is handed on: of both, the
named buffer is the heir. -/
theorem run_cleans_handedOn :
    agingBuffers.current = some 1 ∧ (agingBuffers.removeStale 100 60).1 = 2 ∧
      (agingBuffers.removeStale 100 60).2.ids = [3, 4] ∧
      (agingBuffers.removeStale 100 60).2.current = some 3 ∧
      (agingBuffers.removeStale 100 60).2.scratchCount = 1 := by
  have hcleans : Cleans (survives 100 60) agingBuffers (agingBuffers.removeStale 100 60).1
      (agingBuffers.removeStale 100 60).2 := run_cleans { initialCapacity := 4 } _ 100 60
  have hremoved : (agingBuffers.removeStale 100 60).1 = 2 := by decide +kernel
  refine ⟨by decide +kernel, hremoved, ?_, ?_, ?_⟩
  · rw [ids, hcleans.buffers]
    decide +kernel
  · rw [hcleans.current]
    decide +kernel
  · have hcount := hcleans.scratchCount
    have hbefore : agingBuffers.scratchCount = 3 := by decide +kernel
    omega

end TextStore.Store
