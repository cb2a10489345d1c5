import TextStore.Proofs.History.Numbering
import TextStore.Store.Lifecycle

/-!
# Consistent stores

* `Store.Consistent` : ids increase, names are distinct and not empty, the lifetime of a buffer says
  whether it has a name, the count of scratch buffers is that of the buffers without a name, both
  limits are kept, and the current id is that of a buffer unless there is none;
* `Store.push`, `add_cases` : an addition puts a new buffer at the end or changes nothing;
* `Consistent.add`, `Consistent.replace`, `Consistent.removeAt` : the three ways in which an operation
  changes the list of buffers. Every operation is made of them and keeps a store consistent
  (`Consistent.create` and the lemmas after it);
* `Removes`, `Keeps`, `Issues` : what an operation does to the ids. It removes some, keeps them, or
  puts the next one behind them.
-/

namespace TextStore

/-- The name is not empty, and the lifetime says whether there is one. -/
structure StoredBuffer.Proper (sb : StoredBuffer) : Prop where
  scratch_iff : sb.lifetime = .scratch ↔ sb.name = none
  persistent_iff : sb.lifetime = .persistent ↔ sb.name.isSome = true
  name_ne : sb.name ≠ some ""

theorem StoredBuffer.proper_create {id now : Nat} {name : Option String} {b : GapBuffer}
    {settings : HistorySettings} (hname : name ≠ some "") : (create id name b settings now).Proper := by
  cases name with
  | none => exact ⟨by simp [create], by simp [create], hname⟩
  | some name => exact ⟨by simp [create], by simp [create], hname⟩

theorem StoredBuffer.Proper.isScratch_eq {sb : StoredBuffer} (h : sb.Proper) :
    sb.isScratch = sb.name.isNone := by
  rw [Bool.eq_iff_iff, isScratch, beq_iff_eq, h.scratch_iff, Option.isNone_iff_eq_none]

namespace Store

structure Consistent (st : Store) : Prop where
  numbered : Numbered st.ids st.nextId
  proper : ∀ sb ∈ st.buffers, sb.Proper
  /-- No two buffers share a name. -/
  names : st.buffers.Pairwise fun a b => a.name.isSome = true → a.name ≠ b.name
  scratchCount : st.scratchCount = st.buffers.countP fun sb => sb.name.isNone
  size_le : st.size ≤ st.settings.maxBuffers
  scratch_le : st.scratchCount ≤ st.settings.maxScratchBuffers
  current_eq_none : st.current = none ↔ st.buffers = []
  current_mem : ∀ id, st.current = some id → id ∈ st.ids

variable {st : Store}

theorem consistent_new (settings : Settings) : Consistent { settings } where
  numbered := ⟨List.Pairwise.nil, fun _ hid => by cases hid⟩
  proper _ hsb := by cases hsb
  names := List.Pairwise.nil
  scratchCount := rfl
  size_le := Nat.zero_le _
  scratch_le := Nat.zero_le _
  current_eq_none := ⟨fun _ => rfl, fun _ => rfl⟩
  current_mem _ hid := by cases hid

/-! ## Looking up -/

theorem mem_ids {sb : StoredBuffer} (hsb : sb ∈ st.buffers) : sb.id ∈ st.ids :=
  List.mem_map_of_mem hsb

theorem find?_split {id : Nat} {sb : StoredBuffer} (hsb : st.find? id = some sb) :
    sb.id = id ∧ ∃ pre post, st.buffers = pre ++ sb :: post := by
  obtain ⟨hid, pre, post, hsplit, -⟩ := List.find?_eq_some_iff_append.1 hsb
  exact ⟨by simpa using hid, pre, post, hsplit⟩

theorem findName?_split {name : String} {sb : StoredBuffer} (hsb : st.findName? name = some sb) :
    sb.name = some name ∧ ∃ pre post, st.buffers = pre ++ sb :: post := by
  obtain ⟨hname, pre, post, hsplit, -⟩ := List.find?_eq_some_iff_append.1 hsb
  exact ⟨by simpa using hname, pre, post, hsplit⟩

theorem containsName_eq_false {name : String} :
    st.containsName name = false ↔ ∀ sb ∈ st.buffers, sb.name ≠ some name := by
  simp [containsName, indexOfName?, List.findIdx?_isSome]

/-! ## Adding a buffer -/

/-- The store with one more buffer, which is current if no other is. -/
def push (st : Store) (sb : StoredBuffer) : Store :=
  { st with
    buffers := st.buffers ++ [sb]
    current := st.current.or (some sb.id)
    nextId := st.nextId + 1
    scratchCount := if sb.isScratch then st.scratchCount + 1 else st.scratchCount }

theorem ids_push (st : Store) (sb : StoredBuffer) : (st.push sb).ids = st.ids ++ [sb.id] := by
  simp only [ids, push, List.map_append, List.map_cons, List.map_nil]

theorem mem_push {sb new : StoredBuffer} :
    sb ∈ (st.push new).buffers ↔ sb ∈ st.buffers ∨ sb = new := by
  simp only [push, List.mem_append, List.mem_singleton]

/-- The buffer that is created next. -/
def newBuffer (st : Store) (name : Option String) (b : GapBuffer) (now : Nat) : StoredBuffer :=
  StoredBuffer.create st.nextId name b st.settings.history now

/-- There is room for one more buffer, and memory grants its first region and its place in the
list. -/
structure Admits (mem : Memory) (st : Store) (b : GapBuffer) : Prop where
  room : st.size < st.settings.maxBuffers
  region : GapBuffer.withCapacity mem st.settings.initialCapacity = .ok b
  slot : mem.slot = .ok ()

theorem add_of_admits {mem : Memory} {b : GapBuffer} (h : st.Admits mem b) (now : Nat)
    (name : Option String) :
    st.add mem now name = (.ok st.nextId, st.push (st.newBuffer name b now)) := by
  unfold add
  rw [if_neg (Nat.not_le_of_lt h.room), h.region, h.slot]
  rfl

/-- An addition puts a new buffer at the end, or is refused and leaves the store as it was. -/
theorem add_cases (mem : Memory) (now : Nat) (st : Store) (name : Option String) :
    (∃ e, st.add mem now name = (.error e, st)) ∨
      ∃ b, st.Admits mem b ∧
        st.add mem now name = (.ok st.nextId, st.push (st.newBuffer name b now)) := by
  by_cases hroom : st.size < st.settings.maxBuffers
  · cases hregion : GapBuffer.withCapacity mem st.settings.initialCapacity with
    | error e => exact .inl ⟨_, by rw [add, if_neg (Nat.not_le_of_lt hroom), hregion]⟩
    | ok b =>
      cases hslot : mem.slot with
      | error bytes => exact .inl ⟨_, by rw [add, if_neg (Nat.not_le_of_lt hroom), hregion, hslot]⟩
      | ok =>
        have hadmits : st.Admits mem b := ⟨hroom, hregion, hslot⟩
        exact .inr ⟨b, hadmits, add_of_admits hadmits now name⟩
  · exact .inl ⟨_, by rw [add, if_pos (Nat.le_of_not_lt hroom)]⟩

theorem admits_of_ok {mem : Memory} {now id : Nat} {name : Option String} {st' : Store}
    (hok : st.add mem now name = (.ok id, st')) :
    ∃ b, st.Admits mem b ∧ id = st.nextId ∧ st' = st.push (st.newBuffer name b now) := by
  obtain ⟨e, hadd⟩ | ⟨b, hadmits, hadd⟩ := st.add_cases mem now name
  · rw [hadd] at hok
    cases hok
  · rw [hadd] at hok
    cases hok
    exact ⟨b, hadmits, rfl, rfl⟩

namespace Consistent

variable {pre post : List StoredBuffer} {sb : StoredBuffer}

/-- No other buffer has the id of one. -/
theorem ne_id (hc : st.Consistent) (hsplit : st.buffers = pre ++ sb :: post) :
    ∀ other ∈ pre ++ post, other.id ≠ sb.id := by
  have hids := hc.numbered.increasing
  rw [ids, hsplit, List.map_append, List.map_cons, List.pairwise_append, List.pairwise_cons] at hids
  obtain ⟨-, ⟨hafter, -⟩, hbefore⟩ := hids
  intro other hother
  rcases List.mem_append.1 hother with hpre | hpost
  · have := hbefore other.id (List.mem_map_of_mem hpre) sb.id List.mem_cons_self
    omega
  · have := hafter other.id (List.mem_map_of_mem hpost)
    omega

/-- No other buffer has the name of one. -/
theorem ne_name (hc : st.Consistent) (hsplit : st.buffers = pre ++ sb :: post)
    (hsome : sb.name.isSome = true) : ∀ other ∈ pre ++ post, other.name ≠ sb.name := by
  have hnames := hc.names
  rw [hsplit, List.pairwise_append, List.pairwise_cons] at hnames
  obtain ⟨-, ⟨hafter, -⟩, hbefore⟩ := hnames
  intro other hother heq
  rcases List.mem_append.1 hother with hpre | hpost
  · exact hbefore other hpre sb List.mem_cons_self (heq ▸ hsome) heq
  · exact hafter other hpost hsome heq.symm

theorem exists_current (hc : st.Consistent) (hsb : sb ∈ st.buffers) :
    ∃ id, st.current = some id ∧ id ∈ st.ids := by
  have hsome : st.current ≠ none := by
    rw [ne_eq, hc.current_eq_none]
    exact List.ne_nil_of_mem hsb
  obtain ⟨id, hid⟩ := Option.ne_none_iff_exists'.1 hsome
  exact ⟨id, hid, hc.current_mem id hid⟩

theorem find?_eq (hc : st.Consistent) (hsb : sb ∈ st.buffers) : st.find? sb.id = some sb := by
  obtain ⟨pre, post, hsplit⟩ := List.append_of_mem hsb
  have hne := hc.ne_id hsplit
  refine List.find?_eq_some_iff_append.2 ⟨by simp, pre, post, hsplit, fun other hother => ?_⟩
  simp [hne other (List.mem_append_left _ hother)]

theorem modify_eq (hc : st.Consistent) (hsplit : st.buffers = pre ++ sb :: post)
    (f : StoredBuffer → StoredBuffer) :
    st.modify sb.id f = { st with buffers := pre ++ f sb :: post } := by
  have hne := hc.ne_id hsplit
  have hkept (l : List StoredBuffer) (hl : ∀ other ∈ l, other ∈ pre ++ post) :
      l.map (fun other => if other.id = sb.id then f other else other) = l :=
    (List.map_congr_left (g := id) fun other hother => if_neg (hne other (hl other hother))).trans
      (List.map_id l)
  rw [modify, hsplit, List.map_append, List.map_cons, if_pos rfl,
    hkept pre fun _ => List.mem_append_left _, hkept post fun _ => List.mem_append_right _]

/-! ## Changing the list of buffers -/

theorem add (hc : st.Consistent) (mem : Memory) (now : Nat) {name : Option String}
    (hname : name ≠ some "") (hnew : name.isSome = true → ∀ sb ∈ st.buffers, sb.name ≠ name)
    (hscratch : name = none → st.scratchCount < st.settings.maxScratchBuffers) :
    (st.add mem now name).2.Consistent := by
  obtain ⟨e, hadd⟩ | ⟨b, hadmits, hadd⟩ := st.add_cases mem now name
  · rw [hadd]
    exact hc
  rw [hadd]
  have hids := st.ids_push (st.newBuffer name b now)
  refine ⟨⟨?_, ?_⟩, ?_, ?_, ?_, ?_, ?_, ?_, ?_⟩
  · rw [hids]
    refine List.pairwise_append.2 ⟨hc.numbered.increasing, List.pairwise_singleton _ _, ?_⟩
    intro old hold new hnew
    rw [List.mem_singleton.1 hnew]
    exact hc.numbered.below old hold
  · intro id hid
    rw [hids] at hid
    rcases List.mem_append.1 hid with hold | hnew
    · exact Nat.lt_succ_of_lt (hc.numbered.below id hold)
    · rw [List.mem_singleton.1 hnew]
      exact Nat.lt_succ_self _
  · intro sb hsb
    rcases mem_push.1 hsb with hold | rfl
    · exact hc.proper sb hold
    · exact StoredBuffer.proper_create hname
  · refine List.pairwise_append.2 ⟨hc.names, List.pairwise_singleton _ _, ?_⟩
    intro old hold new hlast hsome heq
    have hold' : old.name = name := by rw [heq, List.mem_singleton.1 hlast]; rfl
    exact hnew (hold' ▸ hsome) old hold hold'
  · simp only [push, List.countP_append, List.countP_singleton, ← hc.scratchCount]
    cases name <;> rfl
  · simp only [size, push, List.length_append, List.length_singleton]
    exact hadmits.room
  · have hle := hc.scratch_le
    cases name with
    | none => exact hscratch rfl
    | some name => exact hle
  · simp only [push, Option.or_eq_none_iff, List.append_eq_nil_iff, List.cons_ne_nil, and_false,
      reduceCtorEq]
  · intro id hid
    rw [hids]
    rcases Option.or_eq_some_iff.1 hid with hold | ⟨-, hnew⟩
    · exact List.mem_append_left _ (hc.current_mem id hold)
    · cases hnew
      exact List.mem_append_right _ List.mem_cons_self

/-- One buffer is put in the place of another that has its id. -/
theorem replace (hc : st.Consistent) (hsplit : st.buffers = pre ++ sb :: post) {sb' : StoredBuffer}
    (hid : sb'.id = sb.id) (hproper : sb'.Proper)
    (hnames : sb'.name.isSome = true → ∀ other ∈ pre ++ post, other.name ≠ sb'.name)
    {current count : Nat} (hcurrent : current ∈ st.ids)
    (hcount : count = (pre ++ sb' :: post).countP fun sb => sb.name.isNone)
    (hle : count ≤ st.settings.maxScratchBuffers) :
    Consistent { st with
      buffers := pre ++ sb' :: post, current := some current, scratchCount := count } := by
  have hids : (pre ++ sb' :: post).map StoredBuffer.id = st.ids := by
    simp only [ids, hsplit, List.map_append, List.map_cons, hid]
  have hlen : (pre ++ sb' :: post).length = st.size := by
    simp only [size, hsplit, List.length_append, List.length_cons]
  have hold := hc.names
  rw [hsplit, List.pairwise_append, List.pairwise_cons] at hold
  obtain ⟨hpre, ⟨-, hpost⟩, hacross⟩ := hold
  refine ⟨?_, ?_, ?_, hcount, ?_, hle, ?_, ?_⟩
  · show Numbered ((pre ++ sb' :: post).map StoredBuffer.id) st.nextId
    rw [hids]
    exact hc.numbered
  · intro other hother
    rcases List.mem_append.1 hother with hmem | hmem
    · exact hc.proper other (by rw [hsplit]; exact List.mem_append_left _ hmem)
    · rcases List.mem_cons.1 hmem with rfl | hmem
      · exact hproper
      · exact hc.proper other
          (by rw [hsplit]; exact List.mem_append_right _ (List.mem_cons_of_mem _ hmem))
  · refine List.pairwise_append.2 ⟨hpre, List.pairwise_cons.2 ⟨?_, hpost⟩, ?_⟩
    · intro other hother hsome heq
      exact hnames hsome other (List.mem_append_right _ hother) heq.symm
    · intro a ha b hb hsome heq
      rcases List.mem_cons.1 hb with rfl | hb
      · exact hnames (heq ▸ hsome) a (List.mem_append_left _ ha) heq
      · exact hacross a ha b (List.mem_cons_of_mem _ hb) hsome heq
  · show (pre ++ sb' :: post).length ≤ st.settings.maxBuffers
    rw [hlen]
    exact hc.size_le
  · simp
  · rintro _ ⟨⟩
    show current ∈ (pre ++ sb' :: post).map StoredBuffer.id
    rw [hids]
    exact hcurrent

/-- An operation on one buffer that leaves its id, name and lifetime alone. -/
theorem modify (hc : st.Consistent) (hsb : st.find? sb.id = some sb) {f : StoredBuffer → StoredBuffer}
    (hid : (f sb).id = sb.id) (hname : (f sb).name = sb.name)
    (hlifetime : (f sb).lifetime = sb.lifetime) {current : Nat} (hcurrent : current ∈ st.ids) :
    Consistent { st.modify sb.id f with current := some current } := by
  obtain ⟨-, pre, post, hsplit⟩ := find?_split hsb
  have hcount := hc.scratchCount
  have hmem : sb ∈ st.buffers := List.mem_of_find?_eq_some hsb
  rw [hc.modify_eq hsplit f]
  refine hc.replace hsplit hid ?_ ?_ hcurrent ?_ hc.scratch_le
  · have hproper := hc.proper sb hmem
    exact ⟨by rw [hlifetime, hname]; exact hproper.scratch_iff,
      by rw [hlifetime, hname]; exact hproper.persistent_iff, by rw [hname]; exact hproper.name_ne⟩
  · rw [hname]
    exact hc.ne_name hsplit
  · rw [hcount, hsplit, List.countP_append, List.countP_append, List.countP_cons, List.countP_cons,
      hname]

end Consistent

/-! ## Removing -/

theorem split_at {index : Nat} {sb : StoredBuffer} (hsb : st.buffers[index]? = some sb) :
    ∃ pre post, st.buffers = pre ++ sb :: post ∧ pre.length = index := by
  obtain ⟨hlt, rfl⟩ := List.getElem?_eq_some_iff.1 hsb
  refine ⟨st.buffers.take index, st.buffers.drop (index + 1), ?_, ?_⟩
  · rw [← List.drop_eq_getElem_cons hlt, List.take_append_drop]
  · exact List.length_take_of_le (Nat.le_of_lt hlt)

theorem neighbour?_eq {pre post : List StoredBuffer} {sb : StoredBuffer}
    (hsplit : st.buffers = pre ++ sb :: post) :
    st.neighbour? pre.length = post.head?.or pre.getLast? := by
  have hafter : st.buffers[pre.length + 1]? = post.head? := by
    simp [hsplit, List.getElem?_append_right, List.head?_eq_getElem?]
  unfold neighbour?
  rw [hafter, List.getLast?_eq_getElem?]
  cases hlen : pre.length with
  | zero => simp [List.length_eq_zero_iff.1 hlen]
  | succ before => simp [hsplit, List.getElem?_append_left (show before < pre.length by omega)]

/-- The next buffer becomes current in place of a current one, or else the one before it. -/
theorem removeAt_eq {pre post : List StoredBuffer} {sb : StoredBuffer}
    (hsplit : st.buffers = pre ++ sb :: post) :
    st.removeAt pre.length =
      { st with
        buffers := pre ++ post
        current :=
          if st.current = some sb.id then (post.head?.or pre.getLast?).map StoredBuffer.id
          else st.current
        scratchCount := if sb.isScratch then st.scratchCount - 1 else st.scratchCount } := by
  have hsb : st.buffers[pre.length]? = some sb := by simp [hsplit]
  have herase : st.buffers.eraseIdx pre.length = pre ++ post := by
    simp [hsplit, List.eraseIdx_append_of_length_le]
  simp only [removeAt, neighbour?_eq hsplit, hsb, herase]

theorem Consistent.scratch_pos (hc : st.Consistent) {sb : StoredBuffer} (hsb : sb ∈ st.buffers)
    (hscratch : sb.isScratch = true) : 1 ≤ st.scratchCount := by
  rw [(hc.proper sb hsb).isScratch_eq] at hscratch
  rw [hc.scratchCount]
  exact List.countP_pos_iff.2 ⟨sb, hsb, hscratch⟩

theorem Consistent.removeAt (hc : st.Consistent) (index : Nat) : (st.removeAt index).Consistent := by
  cases hsb : st.buffers[index]? with
  | none =>
    rw [Store.removeAt, hsb]
    exact hc
  | some sb =>
    obtain ⟨pre, post, hsplit, rfl⟩ := split_at hsb
    have hsub : (pre ++ post).Sublist st.buffers := by
      rw [hsplit]
      exact (List.Sublist.refl pre).append (List.sublist_cons_self sb post)
    have hne := hc.ne_id hsplit
    have hcount := hc.scratchCount
    have hscratch := (hc.proper sb (List.mem_of_getElem? hsb)).isScratch_eq
    rw [hsplit, List.countP_append, List.countP_cons] at hcount
    rw [removeAt_eq hsplit]
    refine ⟨⟨hc.numbered.increasing.sublist (hsub.map _), ?_⟩, ?_, hc.names.sublist hsub, ?_, ?_, ?_,
      ?_, ?_⟩
    · intro id hid
      exact hc.numbered.below id ((hsub.map _).subset hid)
    · intro other hother
      exact hc.proper other (hsub.subset hother)
    · simp only [hscratch, List.countP_append]
      cases hnone : sb.name.isNone with
      | true =>
        simp only [hnone, if_true] at hcount ⊢
        omega
      | false =>
        simp only [hnone, Bool.false_eq_true, if_false] at hcount ⊢
        omega
    · exact Nat.le_trans hsub.length_le hc.size_le
    · have hle := hc.scratch_le
      simp only
      split <;> omega
    · simp only
      split
      · rw [Option.map_eq_none_iff, Option.or_eq_none_iff, List.head?_eq_none_iff,
          List.getLast?_eq_none_iff, List.append_eq_nil_iff]
        exact And.comm
      · next hother =>
        -- some other buffer is current, so there is one and it stays
        obtain ⟨id, hid, hids⟩ := hc.exists_current (List.mem_of_getElem? hsb)
        obtain ⟨old, hold, rfl⟩ := List.mem_map.1 hids
        rw [hid] at hother ⊢
        refine ⟨nofun, fun hnil => ?_⟩
        obtain ⟨hpre, hpost⟩ := List.append_eq_nil_iff.1 hnil
        rw [hsplit, hpre, hpost] at hold
        rw [List.mem_singleton.1 hold] at hother
        exact absurd rfl hother
    · intro id hid
      simp only at hid
      split at hid
      · obtain ⟨neighbour, hneighbour, rfl⟩ := Option.map_eq_some_iff.1 hid
        refine List.mem_map_of_mem ?_
        rcases Option.or_eq_some_iff.1 hneighbour with hhead | ⟨-, hlast⟩
        · exact List.mem_append_right _ (List.mem_of_head? hhead)
        · exact List.mem_append_left _ (List.mem_of_getLast? hlast)
      · next hother =>
        obtain ⟨old, hold, rfl⟩ := List.mem_map.1 (hc.current_mem id hid)
        refine List.mem_map_of_mem ?_
        rw [hsplit] at hold
        rcases List.mem_append.1 hold with hpre | hrest
        · exact List.mem_append_left _ hpre
        · rcases List.mem_cons.1 hrest with rfl | hpost
          · exact absurd hid hother
          · exact List.mem_append_right _ hpost

/-! ## The settings and the ids -/

theorem ids_modify (st : Store) (id : Nat) {f : StoredBuffer → StoredBuffer}
    (hf : ∀ sb, (f sb).id = sb.id) : (st.modify id f).ids = st.ids := by
  simp only [ids, modify, List.map_map]
  refine List.map_congr_left fun sb _ => ?_
  by_cases hid : sb.id = id
  · simp [hid, hf]
  · simp [hid]

/-- Nothing but removing buffers happened. -/
structure Removes (st st' : Store) : Prop where
  settings : st'.settings = st.settings
  nextId : st'.nextId = st.nextId
  buffers : st'.buffers.Sublist st.buffers

theorem Removes.refl (st : Store) : st.Removes st := ⟨rfl, rfl, .refl _⟩

theorem Removes.trans {st' st'' : Store} (h : st.Removes st') (h' : st'.Removes st'') :
    st.Removes st'' :=
  ⟨h'.settings.trans h.settings, h'.nextId.trans h.nextId, h'.buffers.trans h.buffers⟩

theorem removes_removeAt (st : Store) (index : Nat) : st.Removes (st.removeAt index) := by
  unfold removeAt
  split
  · exact .refl st
  · exact ⟨rfl, rfl, List.eraseIdx_sublist _ _⟩

theorem removes_delete (st : Store) (id : Nat) : st.Removes (st.delete id).2 := by
  unfold delete
  split
  · exact .refl st
  · exact st.removes_removeAt _

theorem removes_deleteName (st : Store) (name : String) : st.Removes (st.deleteName name).2 := by
  unfold deleteName
  split
  · exact .refl st
  · exact st.removes_removeAt _

theorem removes_discard (st : Store) (id : Nat) : st.Removes (st.discard id) := by
  unfold discard
  split
  · exact .refl st
  · exact st.removes_removeAt _

theorem removes_removeStale (st : Store) (now maxAge : Nat) :
    st.Removes (st.removeStale now maxAge).2 := by
  simp only [removeStale]
  generalize (st.buffers.filter (isStale now maxAge)).map StoredBuffer.id = stale
  induction stale generalizing st with
  | nil => exact .refl st
  | cons id rest ih => exact (st.removes_discard id).trans (ih (st.discard id))

/-- No buffer was created. -/
structure Keeps (st st' : Store) : Prop where
  settings : st'.settings = st.settings
  nextId : st'.nextId = st.nextId
  ids : st'.ids.Sublist st.ids

theorem Keeps.refl (st : Store) : st.Keeps st := ⟨rfl, rfl, .refl _⟩

theorem Removes.keeps {st' : Store} (h : st.Removes st') : st.Keeps st' :=
  ⟨h.settings, h.nextId, h.buffers.map _⟩

theorem keeps_modify (st : Store) (id : Nat) {f : StoredBuffer → StoredBuffer}
    (hf : ∀ sb, (f sb).id = sb.id) (current : Option Nat) (count : Nat) :
    st.Keeps { st.modify id f with current, scratchCount := count } :=
  ⟨rfl, rfl, by rw [← st.ids_modify id hf]; exact .refl _⟩

theorem keeps_switchTo (now : Nat) (st : Store) (id : Nat) : st.Keeps (st.switchTo now id).2 := by
  unfold switchTo
  split
  · exact .refl st
  · exact st.keeps_modify _ (by intro sb; rfl) _ _

theorem keeps_switchToName (now : Nat) (st : Store) (name : String) :
    st.Keeps (st.switchToName now name).2 := by
  unfold switchToName
  split
  · exact .refl st
  · exact st.keeps_modify _ (by intro sb; rfl) _ _

theorem keeps_rename (st : Store) (id : Nat) (name : String) : st.Keeps (st.rename id name).2 := by
  unfold rename
  split
  · exact .refl st
  split
  · exact .refl st
  split
  · exact .refl st
  · exact st.keeps_modify _ (by intro sb; rfl) _ _

theorem keeps_update {α : Type} (st : Store) (id : Nat) (f : StoredBuffer → α × StoredBuffer) :
    st.Keeps (st.update id f).2 := by
  unfold update
  split
  · exact .refl st
  · exact st.keeps_modify _ (by intro sb; rfl) _ _

structure IssuesTo (st st' : Store) : Prop where
  settings : st'.settings = st.settings
  nextId : st'.nextId = st.nextId + 1
  ids : st'.ids = st.ids ++ [st.nextId]

/-- A creation answers the next id and goes on to the one after it, or leaves the store as it was. -/
def Issues (st : Store) (result : Except StoreError Nat × Store) : Prop :=
  (∃ e, result = (.error e, st)) ∨ ∃ st', result = (.ok st.nextId, st') ∧ st.IssuesTo st'

theorem issues_add (mem : Memory) (now : Nat) (st : Store) (name : Option String) :
    st.Issues (st.add mem now name) := by
  obtain hrefused | ⟨b, -, hadd⟩ := st.add_cases mem now name
  · exact .inl hrefused
  · exact .inr ⟨_, hadd, rfl, rfl, st.ids_push _⟩

theorem issues_create (mem : Memory) (now : Nat) (st : Store) (name : String) :
    st.Issues (st.create mem now name) := by
  unfold create
  split
  · exact .inl ⟨_, rfl⟩
  split
  · exact .inl ⟨_, rfl⟩
  · exact issues_add mem now st name

theorem issues_createScratch (mem : Memory) (now : Nat) (st : Store) :
    st.Issues (st.createScratch mem now) := by
  unfold createScratch
  split
  · exact .inl ⟨_, rfl⟩
  · exact issues_add mem now st none

/-! ## The operations -/

namespace Consistent

theorem create (hc : st.Consistent) (mem : Memory) (now : Nat) (name : String) :
    (st.create mem now name).2.Consistent := by
  unfold Store.create
  split
  · exact hc
  next hempty =>
  split
  · exact hc
  next hfree =>
  refine hc.add mem now ?_ ?_ nofun
  · rintro ⟨⟩
    exact hempty rfl
  · intro _
    exact containsName_eq_false.1 (by simpa using hfree)

theorem createScratch (hc : st.Consistent) (mem : Memory) (now : Nat) :
    (st.createScratch mem now).2.Consistent := by
  unfold Store.createScratch
  split
  · exact hc
  · next hroom => exact hc.add mem now nofun nofun fun _ => Nat.lt_of_not_le hroom

theorem delete (hc : st.Consistent) (id : Nat) : (st.delete id).2.Consistent := by
  unfold Store.delete
  split
  · exact hc
  · exact hc.removeAt _

theorem deleteName (hc : st.Consistent) (name : String) : (st.deleteName name).2.Consistent := by
  unfold Store.deleteName
  split
  · exact hc
  · exact hc.removeAt _

theorem discard (hc : st.Consistent) (id : Nat) : (st.discard id).Consistent := by
  unfold Store.discard
  split
  · exact hc
  · exact hc.removeAt _

theorem removeStale (hc : st.Consistent) (now maxAge : Nat) :
    (st.removeStale now maxAge).2.Consistent := by
  simp only [Store.removeStale]
  generalize (st.buffers.filter (isStale now maxAge)).map StoredBuffer.id = stale
  induction stale generalizing st with
  | nil => exact hc
  | cons id rest ih => exact ih (hc.discard id)

theorem activate (hc : st.Consistent) {sb : StoredBuffer} (hsb : sb ∈ st.buffers) (now : Nat) :
    (st.activate now sb.id).Consistent :=
  hc.modify (hc.find?_eq hsb) rfl rfl rfl (mem_ids hsb)

theorem switchTo (hc : st.Consistent) (now id : Nat) : (st.switchTo now id).2.Consistent := by
  unfold Store.switchTo
  split
  · exact hc
  · next hsb => exact hc.activate (List.mem_of_find?_eq_some hsb) now

theorem switchToName (hc : st.Consistent) (now : Nat) (name : String) :
    (st.switchToName now name).2.Consistent := by
  unfold Store.switchToName
  split
  · exact hc
  · next hsb => exact hc.activate (List.mem_of_find?_eq_some hsb) now

theorem update {α : Type} (hc : st.Consistent) (id : Nat) (f : StoredBuffer → α × StoredBuffer) :
    (st.update id f).2.Consistent := by
  unfold Store.update
  split
  · exact hc
  · next sb hsb =>
    obtain ⟨rfl, -⟩ := find?_split hsb
    have hmem := List.mem_of_find?_eq_some hsb
    obtain ⟨current, hcurrent, hids⟩ := hc.exists_current hmem
    have hmodify := hc.modify hsb
      (f := fun sb' => { sb' with buffer := (f sb).2.buffer, history := (f sb).2.history })
      rfl rfl rfl hids
    rw [← hcurrent] at hmodify
    exact hmodify

theorem rename (hc : st.Consistent) (id : Nat) (name : String) : (st.rename id name).2.Consistent := by
  unfold Store.rename
  split
  · exact hc
  next sb hsb =>
  split
  · exact hc
  next hempty =>
  split
  · exact hc
  next hfree =>
  obtain ⟨rfl, pre, post, hsplit⟩ := find?_split hsb
  have hmem := List.mem_of_find?_eq_some hsb
  have hne := hc.ne_id hsplit
  have hcount := hc.scratchCount
  have hle := hc.scratch_le
  have hscratch := (hc.proper sb hmem).isScratch_eq
  obtain ⟨current, hcurrent, hids⟩ := hc.exists_current hmem
  have hid : (sb.setName name).id = sb.id := rfl
  rw [hc.modify_eq hsplit]
  simp only [hcurrent]
  refine hc.replace hsplit hid ?_ ?_ hids ?_ ?_
  · refine ⟨by simp [StoredBuffer.setName], by simp [StoredBuffer.setName], ?_⟩
    rintro ⟨⟩
    exact hempty rfl
  · intro _ other hother heq
    refine hfree (List.any_eq_true.2 ⟨other, ?_, ?_⟩)
    · rw [hsplit]
      rcases List.mem_append.1 hother with hpre | hpost
      · exact List.mem_append_left _ hpre
      · exact List.mem_append_right _ (List.mem_cons_of_mem _ hpost)
    · simpa [hne other hother] using (show other.name = some name from heq)
  · rw [hsplit, List.countP_append, List.countP_cons] at hcount
    simp only [hscratch, List.countP_append, List.countP_cons, StoredBuffer.setName,
      Option.isNone_some, Bool.false_eq_true, if_false]
    split
    · next hnone =>
      simp only [hnone, if_true] at hcount
      omega
    · next hnone =>
      rw [if_neg hnone] at hcount
      omega
  · split <;> omega

end Consistent

end Store

end TextStore
