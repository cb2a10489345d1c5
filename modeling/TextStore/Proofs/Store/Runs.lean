import TextStore.Proofs.Store.Consistency

/-!
# What a run of store operations preserves

* `removeAt?`, `rename?` and those made of them : the operations that subtract, with the subtraction
  checked. On a consistent store no check fails;
* `StoreStep` : an operation of a store with its arguments; an edit of one buffer may leave any text
  and any history behind. `StoreStep.perform?` is the operation with checked subtractions, and
  `handedOut` lists the ids that the creations of a run answer;
* `run_consistent` : a store is consistent after every run, and no id is handed out twice.
-/

namespace TextStore

namespace Store

variable {st : Store}

/-! ## Checked subtractions -/

def namedCount? (st : Store) : Option Nat := sub? st.size st.scratchCount

/-- The number of scratch buffers once `sb` is no longer one of them. -/
def scratchWithout? (st : Store) (sb : StoredBuffer) : Option Nat :=
  if sb.isScratch then sub? st.scratchCount 1 else some st.scratchCount

/-- `removeAt` at a place that has to be one of the list. -/
def removeAt? (st : Store) (index : Nat) : Option Store := do
  let sb ← st.buffers[index]?
  let scratchCount ← st.scratchWithout? sb
  return { st with
    buffers := st.buffers.eraseIdx index
    current :=
      if st.current = some sb.id then (st.neighbour? index).map StoredBuffer.id else st.current
    scratchCount }

/-- `removeAt?` at the place that a search answered, if it did. -/
def removeFound? (st : Store) : Option Nat → Option Store
  | none => some st
  | some index => st.removeAt? index

def removeStale? (st : Store) (now maxAge : Nat) : Option Store :=
  ((st.buffers.filter (isStale now maxAge)).map StoredBuffer.id).foldlM
    (fun st id => st.removeFound? (st.indexOf? id)) st

def rename? (st : Store) (id : Nat) (name : String) : Option Store :=
  match st.find? id with
  | none => some st
  | some sb =>
    if name.isEmpty then some st
    else if st.buffers.any fun other => other.id != id && other.name == some name then some st
    else do
      let scratchCount ← st.scratchWithout? sb
      return { st.modify id (StoredBuffer.setName · name) with scratchCount }

namespace Consistent

theorem namedCount?_eq (hc : st.Consistent) : st.namedCount? = some st.namedCount := by
  apply sub?_of_le
  rw [hc.scratchCount]
  exact List.countP_le_length

theorem scratchWithout?_eq (hc : st.Consistent) {sb : StoredBuffer} (hsb : sb ∈ st.buffers) :
    st.scratchWithout? sb = some (if sb.isScratch then st.scratchCount - 1 else st.scratchCount) := by
  unfold scratchWithout?
  by_cases hscratch : sb.isScratch = true
  · rw [if_pos hscratch, if_pos hscratch, sub?_of_le (hc.scratch_pos hsb hscratch)]
  · rw [if_neg hscratch, if_neg hscratch]

theorem removeAt?_eq (hc : st.Consistent) {index : Nat} (hlt : index < st.size) :
    st.removeAt? index = some (st.removeAt index) := by
  have hsb : st.buffers[index]? = some st.buffers[index] := List.getElem?_eq_getElem hlt
  simp [Store.removeAt?, Store.removeAt, hsb, hc.scratchWithout?_eq (List.getElem_mem hlt)]

theorem removeFound?_eq (hc : st.Consistent) (p : StoredBuffer → Bool) :
    st.removeFound? (st.buffers.findIdx? p) =
      some (match st.buffers.findIdx? p with
        | none => st
        | some index => st.removeAt index) := by
  cases hindex : st.buffers.findIdx? p with
  | none => rfl
  | some index =>
    obtain ⟨hlt, -⟩ := List.findIdx?_eq_some_iff_getElem.1 hindex
    exact hc.removeAt?_eq hlt

theorem removeStale?_eq (hc : st.Consistent) (now maxAge : Nat) :
    st.removeStale? now maxAge = some (st.removeStale now maxAge).2 := by
  simp only [Store.removeStale?, Store.removeStale]
  generalize (st.buffers.filter (isStale now maxAge)).map StoredBuffer.id = stale
  induction stale generalizing st with
  | nil => rfl
  | cons id rest ih =>
    have hdiscard : st.removeFound? (st.indexOf? id) = some (st.discard id) := hc.removeFound?_eq _
    rw [List.foldlM_cons, hdiscard]
    exact ih (hc.discard id)

theorem rename?_eq (hc : st.Consistent) (id : Nat) (name : String) :
    st.rename? id name = some (st.rename id name).2 := by
  unfold Store.rename? Store.rename
  cases hsb : st.find? id with
  | none => rfl
  | some sb =>
    have hcount := hc.scratchWithout?_eq (List.mem_of_find?_eq_some hsb)
    by_cases hempty : name.isEmpty = true
    · simp only [hempty, if_true]
    · by_cases htaken : (st.buffers.any fun other => other.id != id && other.name == some name) = true
      · simp only [hempty, htaken, if_true, if_false, Bool.false_eq_true]
      · simp [hempty, htaken, hcount]

end Consistent

end Store

/-! ## Steps and runs -/

inductive StoreStep where
  | create (mem : Memory) (now : Nat) (name : String)
  | createScratch (mem : Memory) (now : Nat)
  | delete (id : Nat)
  | deleteName (name : String)
  | switchTo (now id : Nat)
  | switchToName (now : Nat) (name : String)
  | rename (id : Nat) (name : String)
  | removeStale (now maxAge : Nat)
  /-- Leaves any text and any history behind in the buffer with this id. -/
  | edit (id : Nat) (f : StoredBuffer → StoredBuffer)
  | editCurrent (f : StoredBuffer → StoredBuffer)

namespace StoreStep

variable {st : Store}

def perform (st : Store) : StoreStep → Store
  | create mem now name => (st.create mem now name).2
  | createScratch mem now => (st.createScratch mem now).2
  | delete id => (st.delete id).2
  | deleteName name => (st.deleteName name).2
  | switchTo now id => (st.switchTo now id).2
  | switchToName now name => (st.switchToName now name).2
  | rename id name => (st.rename id name).2
  | removeStale now maxAge => (st.removeStale now maxAge).2
  | edit id f => (st.update id fun sb => ((), f sb)).2
  | editCurrent f =>
    match st.current with
    | none => st
    | some id => (st.update id fun sb => ((), f sb)).2

/-- The id that the step answers, when it creates a buffer. -/
def created? (st : Store) : StoreStep → Option Nat
  | create mem now name => (st.create mem now name).1.toOption
  | createScratch mem now => (st.createScratch mem now).1.toOption
  | _ => none

theorem consistent_perform (hc : st.Consistent) (step : StoreStep) : (step.perform st).Consistent := by
  cases step with
  | create mem now name => exact hc.create mem now name
  | createScratch mem now => exact hc.createScratch mem now
  | delete id => exact hc.delete id
  | deleteName name => exact hc.deleteName name
  | switchTo now id => exact hc.switchTo now id
  | switchToName now name => exact hc.switchToName now name
  | rename id name => exact hc.rename id name
  | removeStale now maxAge => exact hc.removeStale now maxAge
  | edit id f => exact hc.update id _
  | editCurrent f =>
    simp only [perform]
    split
    · exact hc
    · next id _ => exact hc.update id _

/-- The store after a step, where no subtraction of the step is negative. -/
def perform? (st : Store) : StoreStep → Option Store
  | delete id => st.removeFound? (st.indexOf? id)
  | deleteName name => st.removeFound? (st.indexOfName? name)
  | rename id name => st.rename? id name
  | removeStale now maxAge => st.removeStale? now maxAge
  | step => some (step.perform st)

theorem perform?_eq (hc : st.Consistent) (step : StoreStep) :
    step.perform? st = some (step.perform st) := by
  cases step with
  | delete id =>
    refine (hc.removeFound?_eq _).trans ?_
    simp only [perform, Store.delete, Store.indexOf?]
    cases st.buffers.findIdx? fun sb => sb.id == id <;> rfl
  | deleteName name =>
    refine (hc.removeFound?_eq _).trans ?_
    simp only [perform, Store.deleteName, Store.indexOfName?]
    cases st.buffers.findIdx? fun sb => sb.name == some name <;> rfl
  | rename id name => exact hc.rename?_eq id name
  | removeStale now maxAge => exact hc.removeStale?_eq now maxAge
  | create mem now name => rfl
  | createScratch mem now => rfl
  | switchTo now id => rfl
  | switchToName now name => rfl
  | edit id f => rfl
  | editCurrent f => rfl

/-- A step keeps the settings, and hands out the next id or none. -/
structure Numbers (st : Store) (created : Option Nat) (st' : Store) : Prop where
  settings : st'.settings = st.settings
  created : created = none ∧ st'.nextId = st.nextId ∨
    created = some st.nextId ∧ st'.nextId = st.nextId + 1
  ids : Renumbers st.ids st.nextId st'.ids st'.nextId

theorem numbers_of_keeps {st' : Store} (hkeeps : st.Keeps st') : Numbers st none st' :=
  ⟨hkeeps.settings, .inl ⟨rfl, hkeeps.nextId⟩, hkeeps.nextId ▸ .of_sublist hkeeps.ids⟩

theorem numbers_of_issues {result : Except StoreError Nat × Store} (hissues : st.Issues result) :
    Numbers st result.1.toOption result.2 := by
  rcases hissues with ⟨e, rfl⟩ | ⟨st', rfl, hst'⟩
  · exact numbers_of_keeps (.refl st)
  · refine ⟨hst'.settings, .inr ⟨rfl, hst'.nextId⟩, ?_⟩
    rw [hst'.ids, hst'.nextId]
    exact .give (.refl _)

theorem numbers_perform (st : Store) (step : StoreStep) :
    Numbers st (step.created? st) (step.perform st) := by
  cases step with
  | create mem now name => exact numbers_of_issues (Store.issues_create mem now st name)
  | createScratch mem now => exact numbers_of_issues (Store.issues_createScratch mem now st)
  | delete id => exact numbers_of_keeps (st.removes_delete id).keeps
  | deleteName name => exact numbers_of_keeps (st.removes_deleteName name).keeps
  | switchTo now id => exact numbers_of_keeps (st.keeps_switchTo now id)
  | switchToName now name => exact numbers_of_keeps (st.keeps_switchToName now name)
  | rename id name => exact numbers_of_keeps (st.keeps_rename id name)
  | removeStale now maxAge => exact numbers_of_keeps (st.removes_removeStale now maxAge).keeps
  | edit id f => exact numbers_of_keeps (st.keeps_update id _)
  | editCurrent f =>
    refine numbers_of_keeps ?_
    simp only [perform]
    split
    · exact .refl st
    · exact st.keeps_update _ _

end StoreStep

namespace Store

def run (st : Store) : List StoreStep → Store
  | [] => st
  | step :: rest => run (step.perform st) rest

/-- The ids that the creations of a run answer, in the order they were handed out. -/
def handedOut (st : Store) : List StoreStep → List Nat
  | [] => []
  | step :: rest => (step.created? st).toList ++ handedOut (step.perform st) rest

variable {st : Store}

theorem Consistent.run (hc : st.Consistent) (steps : List StoreStep) : (st.run steps).Consistent := by
  induction steps generalizing st with
  | nil => exact hc
  | cons step rest ih => exact ih (step.consistent_perform hc)

theorem settings_run (st : Store) (steps : List StoreStep) :
    (st.run steps).settings = st.settings := by
  induction steps generalizing st with
  | nil => rfl
  | cons step rest ih => exact (ih _).trans (step.numbers_perform st).settings

theorem renumbers_run (st : Store) (steps : List StoreStep) :
    Renumbers st.ids st.nextId (st.run steps).ids (st.run steps).nextId := by
  induction steps generalizing st with
  | nil => exact .of_sublist (.refl _)
  | cons step rest ih => exact (step.numbers_perform st).ids.trans (ih _)

/-- A run hands out the ids from the next one on, each of them once. -/
theorem handedOut_eq (st : Store) (steps : List StoreStep) :
    st.handedOut steps = List.range' st.nextId ((st.run steps).nextId - st.nextId) := by
  induction steps generalizing st with
  | nil => simp [handedOut, Store.run]
  | cons step rest ih =>
    have hle := (renumbers_run (step.perform st) rest).next_le
    have hrest := ih (step.perform st)
    simp only [handedOut, Store.run]
    -- the rest starts from the same id, or from the one after the id that the step handed out
    rcases (step.numbers_perform st).created with ⟨hnone, hnext⟩ | ⟨hsome, hnext⟩
    · rw [hnext] at hrest
      rw [hnone, hrest]
      rfl
    · rw [hnext] at hle hrest
      rw [hsome, hrest]
      generalize ((step.perform st).run rest).nextId = last at hle
      rw [show last - st.nextId = last - (st.nextId + 1) + 1 by omega, List.range'_succ]
      rfl

/-- After every run of operations on a new store, whatever their arguments and whatever an edit
leaves behind in a buffer, the store is consistent, no id was handed out twice, and no subtraction
that the next operation makes is negative. -/
theorem run_consistent (settings : Settings) (steps : List StoreStep) :
    (run { settings } steps).Consistent ∧
      (run { settings } steps).settings = settings ∧
      Numbered (handedOut { settings } steps) (run { settings } steps).nextId ∧
      (run { settings } steps).ids.Sublist (handedOut { settings } steps) ∧
      (run { settings } steps).namedCount? = some (run { settings } steps).namedCount ∧
      ∀ step : StoreStep, step.perform? (run { settings } steps) =
        some (step.perform (run { settings } steps)) := by
  have hc := (consistent_new settings).run steps
  have hids := renumbers_run { settings } steps
  have hhanded := handedOut_eq { settings } steps
  refine ⟨hc, settings_run _ steps, ?_, ?_, hc.namedCount?_eq, StoreStep.perform?_eq hc⟩
  · rw [hhanded]
    refine ⟨List.pairwise_lt_range', fun id hid => ?_⟩
    have hlt := (List.mem_range'_1.1 hid).2
    have hle := hids.next_le
    omega
  · rw [hhanded]
    exact hids.sublist

end Store

end TextStore
