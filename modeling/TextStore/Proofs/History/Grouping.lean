import TextStore.Proofs.History.Numbering

/-!
# Grouping by the start of a window

The rule by which recorded operations fall into groups, without histories, limits and ids of
sequences.

* `Window` : a group with the time its window began;
* `GroupingCall` : a call that opens a group, closes one or records an operation;
* `Grouping` : the groups that are closed and the open one. `Grouping.take` is the rule for one
  call, `Grouping.takeAll` for one after the other;
* `operations_takeAll` : no operation is lost, and none changes its place among the others;
* `Extends` : what further calls leave of a grouping, a preorder. Closed groups stay as they are;
* `parted_iff` : two operations recorded one after the other are in different groups exactly when
  another call was made between them or the window of the first had passed.
-/

namespace TextStore

/-- A group of operations with the time its window began. -/
structure Window where
  startedAt : Nat
  operations : List Operation
  deriving DecidableEq, Repr

/-- A call that forms groups, with the time it is made at. -/
inductive GroupingCall where
  | beginSequence (now : Nat)
  | closeSequence (now : Nat)
  | record (now position : Nat) (edit : Edit) (cursorBefore cursorAfter : Nat)
  deriving DecidableEq, Repr

namespace GroupingCall

def now : GroupingCall → Nat
  | beginSequence now | closeSequence now | record now .. => now

/-- The operation that a call records under the id `next`. -/
def operation? (next : Nat) : GroupingCall → Option Operation
  | record now position edit cursorBefore cursorAfter =>
    some { id := next, position, edit, cursorBefore, cursorAfter, recordedAt := now }
  | _ => none

/-- The operations that calls record, numbered from `next` on. -/
def recorded (next : Nat) : List GroupingCall → List Operation
  | [] => []
  | call :: rest =>
    match call.operation? next with
    | none => recorded next rest
    | some op => op :: recorded (next + 1) rest

theorem id_of_operation {call : GroupingCall} {op : Operation} {next : Nat}
    (hop : call.operation? next = some op) : op.id = next := by
  cases call with
  | beginSequence now => cases hop
  | closeSequence now => cases hop
  | record now position edit cursorBefore cursorAfter => exact Option.some.inj hop ▸ rfl

end GroupingCall

/-- How operations are grouped. -/
structure Grouping where
  /-- The groups that take no more operations, oldest first. -/
  closed : List Window := []
  /-- The group that takes operations now. -/
  opened : Option Window := none
  /-- The id of the next operation. -/
  nextId : Nat
  deriving DecidableEq, Repr

namespace Grouping

variable {g : Grouping} {window : Nat}

/-! ## The rule -/

/-- Closes the open group; one without operations is dropped. -/
def close (g : Grouping) : Grouping :=
  match g.opened with
  | none => g
  | some w =>
    if w.operations = [] then { g with opened := none }
    else { g with closed := g.closed ++ [w], opened := none }

/-- Opens a group whose window begins at `now`. -/
def start (now : Nat) (ops : List Operation) (g : Grouping) : Grouping :=
  { g.close with opened := some { startedAt := now, operations := ops } }

/-- An operation joins the open group until `window` after its start; otherwise it starts a group of
its own. -/
def join (window : Nat) (g : Grouping) (op : Operation) : Grouping :=
  match g.opened with
  | none => g.start op.recordedAt [op]
  | some w =>
    if op.recordedAt ≤ w.startedAt + window then
      { g with opened := some { w with operations := w.operations ++ [op] } }
    else g.start op.recordedAt [op]

def take (window : Nat) (g : Grouping) (call : GroupingCall) : Grouping :=
  match call with
  | .beginSequence now => g.start now []
  | .closeSequence _ => g.close
  | .record now position edit cursorBefore cursorAfter =>
    let op : Operation :=
      { id := g.nextId, position, edit, cursorBefore, cursorAfter, recordedAt := now }
    { g.join window op with nextId := g.nextId + 1 }

def takeAll (window : Nat) (g : Grouping) (calls : List GroupingCall) : Grouping :=
  calls.foldl (take window) g

/-- All groups, the open one last. -/
def all (g : Grouping) : List Window := g.closed ++ g.opened.toList

def operations (g : Grouping) : List Operation := g.all.flatMap Window.operations

theorem takeAll_cons (window : Nat) (g : Grouping) (call : GroupingCall)
    (rest : List GroupingCall) :
    g.takeAll window (call :: rest) = (g.take window call).takeAll window rest := rfl

theorem takeAll_append (window : Nat) (g : Grouping) (calls later : List GroupingCall) :
    g.takeAll window (calls ++ later) = (g.takeAll window calls).takeAll window later :=
  List.foldl_append

theorem close_of_nil (hnil : ∀ w, g.opened = some w → w.operations = []) :
    g.close = { g with opened := none } := by
  obtain ⟨closed, opened, nextId⟩ := g
  cases opened with
  | none => rfl
  | some w => exact if_pos (hnil w rfl)

theorem close_of_ne_nil {w : Window} (hopen : g.opened = some w) (hne : w.operations ≠ []) :
    g.close = { g with closed := g.closed ++ [w], opened := none } := by
  simp only [close, hopen, if_neg hne]

theorem join_of_le {w : Window} (hopen : g.opened = some w) {op : Operation}
    (hle : op.recordedAt ≤ w.startedAt + window) :
    g.join window op = { g with opened := some { w with operations := w.operations ++ [op] } } := by
  simp only [join, hopen, if_pos hle]

theorem join_of_late {op : Operation}
    (hlate : ∀ w, g.opened = some w → w.startedAt + window < op.recordedAt) :
    g.join window op = g.start op.recordedAt [op] := by
  unfold join
  split
  · rfl
  · next w hopen => exact if_neg (Nat.not_le.2 (hlate w hopen))

/-! ## No operation is lost -/

@[simp] theorem opened_close (g : Grouping) : g.close.opened = none := by
  unfold close
  split
  · next hopen => exact hopen
  · split <;> rfl

@[simp] theorem nextId_close (g : Grouping) : g.close.nextId = g.nextId := by
  unfold close
  split
  · rfl
  · split <;> rfl

@[simp] theorem operations_close (g : Grouping) : g.close.operations = g.operations := by
  unfold close
  split
  · rfl
  · next w hopen =>
    split
    · next hempty => simp [operations, all, hopen, hempty]
    · simp [operations, all, hopen]

theorem operations_start (g : Grouping) (now : Nat) (ops : List Operation) :
    (g.start now ops).operations = g.operations ++ ops := by
  rw [← g.operations_close]
  simp [operations, all, start]

theorem operations_join (window : Nat) (g : Grouping) (op : Operation) :
    (g.join window op).operations = g.operations ++ [op] := by
  unfold join
  split
  · exact g.operations_start _ _
  · next w hopen =>
    split
    · simp [operations, all, hopen]
    · exact g.operations_start _ _

theorem operations_take (window : Nat) (g : Grouping) (call : GroupingCall) :
    (g.take window call).operations = g.operations ++ (call.operation? g.nextId).toList := by
  cases call with
  | beginSequence now => exact g.operations_start now []
  | closeSequence now => simp [take, GroupingCall.operation?]
  | record now position edit cursorBefore cursorAfter => exact g.operations_join window _

theorem nextId_take (window : Nat) (g : Grouping) (call : GroupingCall) :
    (g.take window call).nextId = g.nextId + (call.operation? g.nextId).toList.length := by
  cases call with
  | beginSequence now => exact g.nextId_close
  | closeSequence now => exact g.nextId_close
  | record now position edit cursorBefore cursorAfter => rfl

/-- The operations are those that were there and those recorded since, in the order of the calls. -/
theorem operations_takeAll (window : Nat) (g : Grouping) (calls : List GroupingCall) :
    (g.takeAll window calls).operations = g.operations ++ GroupingCall.recorded g.nextId calls := by
  induction calls generalizing g with
  | nil => simp [takeAll, GroupingCall.recorded]
  | cons call rest ih =>
    rw [takeAll_cons, ih, operations_take, nextId_take, GroupingCall.recorded]
    cases call.operation? g.nextId <;> simp

theorem nextId_takeAll (window : Nat) (g : Grouping) (calls : List GroupingCall) :
    (g.takeAll window calls).nextId = g.nextId + (GroupingCall.recorded g.nextId calls).length := by
  induction calls generalizing g with
  | nil => rfl
  | cons call rest ih =>
    rw [takeAll_cons, ih, nextId_take, GroupingCall.recorded]
    cases call.operation? g.nextId with
    | none => simp
    | some op => simp [Nat.add_assoc, Nat.add_comm 1]

/-- Ids stay numbered. -/
theorem numbered_take (window : Nat) (h : Numbered (g.operations.map Operation.id) g.nextId)
    (call : GroupingCall) :
    Numbered ((g.take window call).operations.map Operation.id) (g.take window call).nextId := by
  rw [operations_take, nextId_take]
  cases call with
  | beginSequence now => simpa [GroupingCall.operation?] using h
  | closeSequence now => simpa [GroupingCall.operation?] using h
  | record now position edit cursorBefore cursorAfter =>
    rw [List.map_append]
    exact (Renumbers.give (List.Sublist.refl _)).numbered h

theorem numbered_takeAll (window : Nat) (h : Numbered (g.operations.map Operation.id) g.nextId)
    (calls : List GroupingCall) :
    Numbered ((g.takeAll window calls).operations.map Operation.id)
      (g.takeAll window calls).nextId := by
  induction calls generalizing g with
  | nil => exact h
  | cons call rest ih => exact ih (numbered_take window h call)

/-! ## Groups stay together -/

/-- The closed groups of `g` are groups of `g'`, and so is the open one, with more operations. -/
structure Extends (g g' : Grouping) : Prop where
  closed : g.closed <+: g'.closed
  opened : ∀ w, g.opened = some w → w.operations ≠ [] →
    ∃ w' ∈ g'.all, w'.startedAt = w.startedAt ∧ w.operations <+: w'.operations

theorem mem_all {g : Grouping} {w : Window} : w ∈ g.all ↔ w ∈ g.closed ∨ g.opened = some w := by
  rw [all, List.mem_append, Option.mem_toList]

theorem Extends.refl (g : Grouping) : g.Extends g :=
  ⟨List.prefix_refl _, fun w hopen _ => ⟨w, mem_all.2 (.inr hopen), rfl, List.prefix_refl _⟩⟩

theorem Extends.trans {g' g'' : Grouping} (h : g.Extends g') (h' : g'.Extends g'') :
    g.Extends g'' := by
  refine ⟨h.closed.trans h'.closed, fun w hopen hne => ?_⟩
  obtain ⟨w', hmem, hstart, hops⟩ := h.opened w hopen hne
  rcases mem_all.1 hmem with hclosed | hopen'
  · exact ⟨w', mem_all.2 (.inl (h'.closed.subset hclosed)), hstart, hops⟩
  · have hne' : w'.operations ≠ [] := fun hnil => hne (List.prefix_nil.1 (hnil ▸ hops))
    obtain ⟨w'', hmem', hstart', hops'⟩ := h'.opened w' hopen' hne'
    exact ⟨w'', hmem', hstart'.trans hstart, hops.trans hops'⟩

theorem mem_closed_close {w : Window} (hopen : g.opened = some w) (hne : w.operations ≠ []) :
    w ∈ g.close.closed := by
  rw [close_of_ne_nil hopen hne]
  exact List.mem_append_right _ (List.mem_singleton.2 rfl)

theorem closed_prefix_close (g : Grouping) : g.closed <+: g.close.closed := by
  unfold close
  split
  · exact List.prefix_refl _
  · split
    · exact List.prefix_refl _
    · exact List.prefix_append _ _

/-- A group that is closed is not changed, whatever is opened then. -/
theorem extends_of_closed {g' : Grouping} (heq : g'.closed = g.close.closed) : g.Extends g' := by
  refine ⟨heq ▸ g.closed_prefix_close, fun w hopen hne => ?_⟩
  exact ⟨w, mem_all.2 (.inl (heq ▸ mem_closed_close hopen hne)), rfl, List.prefix_refl _⟩

theorem extends_join (window : Nat) (g : Grouping) (op : Operation) :
    g.Extends (g.join window op) := by
  unfold join
  split
  · exact extends_of_closed rfl
  · next w hopen =>
    split
    · refine ⟨List.prefix_refl _, fun w' hopen' _ => ?_⟩
      obtain rfl : w = w' := Option.some.inj (hopen.symm.trans hopen')
      exact ⟨_, mem_all.2 (.inr rfl), rfl, List.prefix_append _ _⟩
    · exact extends_of_closed rfl

theorem extends_take (window : Nat) (g : Grouping) (call : GroupingCall) :
    g.Extends (g.take window call) := by
  cases call with
  | beginSequence now => exact extends_of_closed rfl
  | closeSequence now => exact extends_of_closed rfl
  | record now position edit cursorBefore cursorAfter =>
    have hjoin := g.extends_join window
      { id := g.nextId, position, edit, cursorBefore, cursorAfter, recordedAt := now }
    exact ⟨hjoin.closed, hjoin.opened⟩

theorem extends_takeAll (window : Nat) (g : Grouping) (calls : List GroupingCall) :
    g.Extends (g.takeAll window calls) := by
  induction calls generalizing g with
  | nil => exact .refl g
  | cons call rest ih => exact (g.extends_take window call).trans (ih _)

/-! ## Which operations are together -/

/-- Groups whose operations are all different have no operation in common. -/
theorem eq_of_mem_operations {ws : List Window}
    (hids : ((ws.flatMap Window.operations).map Operation.id).Pairwise (· < ·)) {w w' : Window}
    (hw : w ∈ ws) (hw' : w' ∈ ws) {op : Operation} (hop : op ∈ w.operations)
    (hop' : op ∈ w'.operations) : w = w' := by
  induction ws with
  | nil => cases hw
  | cons first rest ih =>
    rw [List.flatMap_cons, List.map_append, List.pairwise_append] at hids
    obtain ⟨-, hrest, hacross⟩ := hids
    have hapart {v : Window} (hv : v ∈ rest) (hfirst : op ∈ first.operations)
        (hlater : op ∈ v.operations) : False :=
      Nat.lt_irrefl op.id (hacross _ (List.mem_map_of_mem hfirst) _
        (List.mem_map_of_mem (List.mem_flatMap_of_mem hv hlater)))
    rcases List.mem_cons.1 hw with heq | hin <;> rcases List.mem_cons.1 hw' with heq' | hin'
    · exact heq.trans heq'.symm
    · exact (hapart hin' (heq ▸ hop) hop').elim
    · exact (hapart hin (heq' ▸ hop') hop).elim
    · exact ih hrest hin hin'

/-- `a` and `b` are recorded one after the other, with the calls `between` made between them. -/
structure Consecutive (next : Nat) (calls : List GroupingCall) (a : Operation)
    (between : List GroupingCall) (b : Operation) : Prop where
  place : ∃ before first second after, calls = before ++ first :: between ++ second :: after ∧
    first.operation? (next + (GroupingCall.recorded next before).length) = some a ∧
    second.operation? (next + (GroupingCall.recorded next before).length + 1) = some b
  quiet : ∀ call ∈ between, ∀ id, call.operation? id = none

theorem take_of_operation {call : GroupingCall} {op : Operation}
    (hop : call.operation? g.nextId = some op) (window : Nat) :
    g.take window call = { g.join window op with nextId := g.nextId + 1 } := by
  cases call with
  | beginSequence now => cases hop
  | closeSequence now => cases hop
  | record now position edit cursorBefore cursorAfter =>
    obtain rfl := Option.some.inj hop
    rfl

/-- An operation is in the open group when it was just recorded. -/
theorem mem_opened_join (window : Nat) (g : Grouping) (op : Operation) :
    ∃ w, (g.join window op).opened = some w ∧ op ∈ w.operations := by
  unfold join
  split
  · exact ⟨_, rfl, List.mem_singleton.2 rfl⟩
  · split
    · exact ⟨_, rfl, List.mem_append_right _ (List.mem_singleton.2 rfl)⟩
    · exact ⟨_, rfl, List.mem_singleton.2 rfl⟩

/-- A call that records nothing closes the open group. -/
theorem mem_closed_of_quiet {call : GroupingCall} (hquiet : ∀ id, call.operation? id = none)
    {w : Window} (hopen : g.opened = some w) (hne : w.operations ≠ []) :
    w ∈ (g.take window call).closed := by
  cases call with
  | beginSequence now => exact mem_closed_close hopen hne
  | closeSequence now => exact mem_closed_close hopen hne
  | record now position edit cursorBefore cursorAfter => cases hquiet 0

/-- So does an operation that comes after the window of that group. -/
theorem mem_closed_of_late {w : Window} (hopen : g.opened = some w) (hne : w.operations ≠ [])
    {op : Operation} (hlate : w.startedAt + window < op.recordedAt) :
    w ∈ (g.join window op).closed := by
  rw [join_of_late fun w' hopen' => Option.some.inj (hopen.symm.trans hopen') ▸ hlate]
  exact mem_closed_close hopen hne

/-- Ids tell the operations of a group from the next one. -/
theorem not_mem_of_id_eq (hids : Numbered (g.operations.map Operation.id) g.nextId) {w : Window}
    (hw : w ∈ g.all) {op : Operation} (hop : op.id = g.nextId) : op ∉ w.operations := by
  intro hmem
  have hbelow := hids.below _ (List.mem_map_of_mem (List.mem_flatMap_of_mem hw hmem))
  omega

/-- The next operation joins the open group, unless a call before it closed that group or it comes
after the window. -/
theorem parted_iff_of_opened (hids : Numbered (g.operations.map Operation.id) g.nextId)
    {wa : Window} (hopen : g.opened = some wa) {a b : Operation} (hawa : a ∈ wa.operations)
    {between : List GroupingCall} (hquiet : ∀ call ∈ between, ∀ id, call.operation? id = none)
    {second : GroupingCall} (hsecond : second.operation? g.nextId = some b)
    (after : List GroupingCall) {w : Window}
    (hw : w ∈ (g.takeAll window (between ++ second :: after)).all) (ha : a ∈ w.operations) :
    b ∉ w.operations ↔ between ≠ [] ∨ w.startedAt + window < b.recordedAt := by
  have hne : wa.operations ≠ [] := List.ne_nil_of_mem hawa
  have hbwa : b ∉ wa.operations :=
    not_mem_of_id_eq hids (mem_all.2 (.inr hopen)) (GroupingCall.id_of_operation hsecond)
  -- `a` is in one group only, so `w` is the group that the open one becomes
  have hwhich {w' : Window} (hw' : w' ∈ (g.takeAll window (between ++ second :: after)).all)
      (ha' : a ∈ w'.operations) : w = w' :=
    eq_of_mem_operations (numbered_takeAll window hids _).increasing hw hw' ha ha'
  cases between with
  | nil =>
    have hlater := extends_takeAll window (g.take window second) after
    by_cases hle : b.recordedAt ≤ wa.startedAt + window
    · have hjoined : (g.take window second).opened =
          some { wa with operations := wa.operations ++ [b] } := by
        rw [take_of_operation hsecond, join_of_le hopen hle]
      obtain ⟨w', hw', hstart, hops⟩ := hlater.opened _ hjoined (by simp)
      obtain rfl := hwhich hw' (hops.subset (List.mem_append_left _ hawa))
      have hb : b ∈ w.operations :=
        hops.subset (List.mem_append_right _ (List.mem_singleton.2 rfl))
      have hlate : ¬ w.startedAt + window < b.recordedAt := by
        rw [show w.startedAt = wa.startedAt from hstart]
        omega
      simp [hb, hlate]
    · have hclosed : wa ∈ (g.take window second).closed := by
        rw [take_of_operation hsecond]
        exact mem_closed_of_late hopen hne (Nat.not_le.1 hle)
      obtain rfl := hwhich (mem_all.2 (.inl (hlater.closed.subset hclosed))) hawa
      simp [hbwa, Nat.not_le.1 hle]
  | cons call rest =>
    have hclosed : wa ∈ (g.take window call).closed :=
      mem_closed_of_quiet (hquiet call (List.mem_cons_self ..)) hopen hne
    have hlater := extends_takeAll window (g.take window call) (rest ++ second :: after)
    obtain rfl := hwhich (mem_all.2 (.inl (hlater.closed.subset hclosed))) hawa
    simp [hbwa]

/-- Two operations recorded one after the other are parted exactly when a call between them closed
the group of the first, or when the second came after the window of that group. -/
theorem parted_iff (hids : Numbered (g.operations.map Operation.id) g.nextId)
    {calls between : List GroupingCall} {a b : Operation}
    (hab : Consecutive g.nextId calls a between b) {w : Window}
    (hw : w ∈ (g.takeAll window calls).all) (ha : a ∈ w.operations) :
    b ∉ w.operations ↔ between ≠ [] ∨ w.startedAt + window < b.recordedAt := by
  obtain ⟨⟨before, first, second, after, rfl, hfirst, hsecond⟩, hquiet⟩ := hab
  rw [← nextId_takeAll window] at hfirst hsecond
  have hids₁ := numbered_take window (numbered_takeAll window hids before) first
  rw [List.append_assoc, List.cons_append, takeAll_append, takeAll_cons] at hw
  rw [take_of_operation hfirst] at hids₁ hw
  obtain ⟨wa, hopen, hawa⟩ := (g.takeAll window before).mem_opened_join window a
  exact parted_iff_of_opened hids₁ hopen hawa hquiet hsecond after hw ha

end Grouping

end TextStore
