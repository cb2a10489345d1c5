import TextStore.Proofs.Store.Lookup
import TextStore.Proofs.Store.Runs

/-!
# A store as a table of ids and names

* `Table` : the ids and names of the buffers in order, and which of them is current. Its operations
  find an entry by its id or by its name, never by its place;
* `Store.table` : a store read as a table;
* `Store.Agrees` : an operation of the store answers what the operation of its table does, leads to
  the table that this one leads to, and changes nothing when it fails;
* `Store.ChangesOnly` : the buffer with one id is another one, and all others are as before;
* `Store.run_refines_table` : after every run of operations, each of them is one on the table.
-/

namespace TextStore

structure Entry where
  id : Nat
  name : Option String
  deriving DecidableEq, Repr

/-- Ids and names in order, one of them current. -/
structure Table where
  settings : Settings
  entries : List Entry
  /-- The id of the current entry. -/
  current : Option Nat
  nextId : Nat
  deriving DecidableEq, Repr

namespace Table

/-- The entry with this id. -/
def find? (t : Table) (id : Nat) : Option Entry := t.entries.find? fun e => e.id == id

/-- The id of the entry with this name. -/
def idOf? (t : Table) (name : String) : Option Nat :=
  (t.entries.find? fun e => e.name == some name).map Entry.id

/-- The number of entries without a name. -/
def unnamed (t : Table) : Nat := t.entries.countP fun e => e.name.isNone

/-- Puts an entry at the end, unless there are too many or memory refuses its region or its place in
the list. -/
def add (mem : Memory) (t : Table) (name : Option String) : Except StoreError Nat × Table :=
  if t.settings.maxBuffers ≤ t.entries.length then (.error (.maxBuffers t.settings.maxBuffers), t)
  else if mem.region t.settings.initialCapacity = false then
    (.error (.allocationFailed t.settings.initialCapacity), t)
  else
    match mem.slot with
    | .error bytes => (.error (.allocationFailed bytes), t)
    | .ok () =>
      (.ok t.nextId,
        { t with
          entries := t.entries ++ [{ id := t.nextId, name }]
          current := t.current.or (some t.nextId)
          nextId := t.nextId + 1 })

def create (mem : Memory) (t : Table) (name : String) : Except StoreError Nat × Table :=
  if name = "" then (.error .invalidName, t)
  else if (t.idOf? name).isSome then (.error (.bufferExists name), t)
  else t.add mem (some name)

def createScratch (mem : Memory) (t : Table) : Except StoreError Nat × Table :=
  if t.settings.maxScratchBuffers ≤ t.unnamed then
    (.error (.maxBuffers t.settings.maxScratchBuffers), t)
  else t.add mem none

def rename (t : Table) (id : Nat) (name : String) : Except StoreError Unit × Table :=
  if t.find? id = none then (.error (.bufferNotFound id), t)
  else if name = "" then (.error .invalidName, t)
  else if (t.idOf? name).any (· != id) then (.error (.bufferExists name), t)
  else
    (.ok (), { t with entries := t.entries.map fun e => if e.id = id then { e with name } else e })

def switchTo (t : Table) (id : Nat) : Except StoreError Unit × Table :=
  if t.find? id = none then (.error (.bufferNotFound id), t)
  else (.ok (), { t with current := some id })

/-- The entry after the one with this id, or else the one before it. -/
def neighbour? (t : Table) (id : Nat) : Option Entry :=
  ((t.entries.dropWhile fun e => e.id != id).drop 1).head?.or
    (t.entries.takeWhile fun e => e.id != id).getLast?

def delete (t : Table) (id : Nat) : Except StoreError Unit × Table :=
  if t.find? id = none then (.error (.bufferNotFound id), t)
  else
    (.ok (),
      { t with
        entries := t.entries.filter fun e => e.id != id
        current := if t.current = some id then (t.neighbour? id).map Entry.id else t.current })

/-- Performs an operation on the entry with this name. -/
def byName {α : Type} (t : Table) (name : String) (f : Nat → Except StoreError α × Table) :
    Except StoreError α × Table :=
  match t.idOf? name with
  | none => (.error (.nameNotFound name), t)
  | some id => f id

def switchToName (t : Table) (name : String) : Except StoreError Nat × Table :=
  t.byName name fun id => (.ok id, (t.switchTo id).2)

def deleteName (t : Table) (name : String) : Except StoreError Unit × Table :=
  t.byName name t.delete

end Table

def StoredBuffer.entry (sb : StoredBuffer) : Entry := { id := sb.id, name := sb.name }

namespace Store

variable {st st' : Store} {sb : StoredBuffer} {pre post : List StoredBuffer}

def table (st : Store) : Table where
  settings := st.settings
  entries := st.buffers.map StoredBuffer.entry
  current := st.current
  nextId := st.nextId

/-! ## Looking up -/

theorem find?_table (st : Store) (id : Nat) :
    st.table.find? id = (st.find? id).map StoredBuffer.entry :=
  List.find?_map ..

theorem idOf?_table (st : Store) (name : String) :
    st.table.idOf? name = (st.findName? name).map StoredBuffer.id := by
  rw [Table.idOf?, table, List.find?_map, Option.map_map]
  rfl

theorem find?_table_eq_none {id : Nat} (hnone : st.find? id = none) : st.table.find? id = none := by
  rw [find?_table, hnone, Option.map_none]

theorem find?_table_ne_none {id : Nat} (hsb : st.find? id = some sb) : st.table.find? id ≠ none := by
  rw [find?_table, hsb]
  exact Option.some_ne_none _

theorem containsName_eq (st : Store) (name : String) :
    st.containsName name = (st.table.idOf? name).isSome := by
  rw [idOf?_table, Option.isSome_map, containsName, indexOfName?, List.findIdx?_isSome, findName?,
    Bool.eq_iff_iff, List.any_eq_true, List.find?_isSome]

theorem Consistent.unnamed_table (hc : st.Consistent) : st.table.unnamed = st.scratchCount := by
  rw [hc.scratchCount, Table.unnamed, table, List.countP_map]
  rfl

/-- Whether a name is taken by a buffer other than one can be read off the table. -/
theorem Consistent.taken_eq (hc : st.Consistent) (id : Nat) (name : String) :
    (st.buffers.any fun other => other.id != id && other.name == some name) =
      (st.table.idOf? name).any (· != id) := by
  rw [idOf?_table, Option.any_map, Bool.eq_iff_iff, List.any_eq_true]
  constructor
  · rintro ⟨other, hother, htaken⟩
    rw [Bool.and_eq_true, beq_iff_eq] at htaken
    rw [hc.findName?_eq hother htaken.2]
    exact htaken.1
  · intro htaken
    obtain ⟨other, hother, hid⟩ := (Option.any_eq_true _ _).1 htaken
    refine ⟨other, List.mem_of_find?_eq_some hother, ?_⟩
    rw [Bool.and_eq_true, beq_iff_eq]
    exact ⟨hid, (findName?_split hother).1⟩

theorem Consistent.indexOf?_eq (hc : st.Consistent) (hsplit : st.buffers = pre ++ sb :: post) :
    st.indexOf? sb.id = some pre.length := by
  have hpre : pre.findIdx? (fun other => other.id == sb.id) = none := by
    rw [List.findIdx?_eq_none_iff]
    intro other hother
    simpa using hc.ne_id hsplit other (List.mem_append_left _ hother)
  simp [indexOf?, hsplit, List.findIdx?_append, hpre, List.findIdx?_cons]

theorem Consistent.indexOfName?_eq (hc : st.Consistent) (hsplit : st.buffers = pre ++ sb :: post)
    {name : String} (hname : sb.name = some name) : st.indexOfName? name = some pre.length := by
  have hne := hc.ne_name hsplit (by rw [hname]; rfl)
  have hpre : pre.findIdx? (fun other => other.name == some name) = none := by
    rw [List.findIdx?_eq_none_iff]
    intro other hother
    have := hne other (List.mem_append_left _ hother)
    rw [hname] at this
    simpa using this
  simp [indexOfName?, hsplit, List.findIdx?_append, hpre, List.findIdx?_cons, hname]

theorem indexOf?_eq_none {id : Nat} (hnone : st.find? id = none) : st.indexOf? id = none := by
  rw [indexOf?, List.findIdx?_eq_none_iff]
  simpa [find?] using hnone

theorem indexOfName?_eq_none {name : String} (hnone : st.findName? name = none) :
    st.indexOfName? name = none := by
  rw [indexOfName?, List.findIdx?_eq_none_iff]
  simpa [findName?] using hnone

/-! ## The same answer and the same table -/

structure Agrees {α : Type} (st : Store) (result : Except StoreError α × Store)
    (spec : Except StoreError α × Table) : Prop where
  answer : result.1 = spec.1
  table : result.2.table = spec.2
  refused : ∀ e, result.1 = .error e → result.2 = st

theorem Agrees.error {α : Type} (st : Store) (e : StoreError) :
    st.Agrees (α := α) (.error e, st) (.error e, st.table) :=
  ⟨rfl, rfl, fun _ _ => rfl⟩

theorem Agrees.ok {α : Type} {a : α} {t : Table} (htable : st'.table = t) :
    st.Agrees (.ok a, st') (.ok a, t) :=
  ⟨rfl, htable, nofun⟩

theorem agrees_add (st : Store) (mem : Memory) (now : Nat) (name : Option String) :
    st.Agrees (st.add mem now name) (st.table.add mem name) := by
  have hsize : st.table.entries.length = st.size := List.length_map ..
  unfold add Table.add GapBuffer.withCapacity
  rw [hsize]
  show st.Agrees _ (if st.settings.maxBuffers ≤ st.size then _ else
    if mem.region st.settings.initialCapacity = false then _ else _)
  by_cases hfull : st.settings.maxBuffers ≤ st.size
  · rw [if_pos hfull, if_pos hfull]
    exact .error st _
  rw [if_neg hfull, if_neg hfull]
  cases hregion : mem.region st.settings.initialCapacity with
  | false =>
    rw [if_neg Bool.false_ne_true, if_pos rfl]
    exact .error st _
  | true =>
    rw [if_pos rfl, if_neg (by simp)]
    cases mem.slot with
    | error bytes => exact .error st _
    | ok =>
      refine .ok ?_
      simp only [table, List.map_append]
      rfl

theorem agrees_create (st : Store) (mem : Memory) (now : Nat) (name : String) :
    st.Agrees (st.create mem now name) (st.table.create mem name) := by
  unfold create Table.create
  rw [containsName_eq]
  by_cases hempty : name = ""
  · rw [if_pos hempty, if_pos (by simp [hempty])]
    exact .error st _
  · rw [if_neg hempty, if_neg (by simpa using hempty)]
    split
    · exact .error st _
    · exact st.agrees_add mem now (some name)

theorem agrees_createScratch (hc : st.Consistent) (mem : Memory) (now : Nat) :
    st.Agrees (st.createScratch mem now) (st.table.createScratch mem) := by
  unfold createScratch Table.createScratch
  rw [hc.unnamed_table]
  show st.Agrees _ (if st.settings.maxScratchBuffers ≤ st.scratchCount then _ else _)
  split
  · exact .error st _
  · exact st.agrees_add mem now none

theorem agrees_rename (hc : st.Consistent) (id : Nat) (name : String) :
    st.Agrees (st.rename id name) (st.table.rename id name) := by
  unfold rename Table.rename
  rw [hc.taken_eq]
  cases hsb : st.find? id with
  | none =>
    rw [if_pos (find?_table_eq_none hsb)]
    exact .error st _
  | some sb =>
    rw [if_neg (find?_table_ne_none hsb)]
    simp only
    by_cases hempty : name = ""
    · rw [if_pos hempty, if_pos (by simp [hempty])]
      exact .error st _
    · rw [if_neg hempty, if_neg (by simpa using hempty)]
      split
      · exact .error st _
      · refine .ok ?_
        simp only [table, modify, List.map_map]
        congr 1
        refine List.map_congr_left fun other _ => ?_
        by_cases hid : other.id = id
        · simp only [Function.comp_apply, StoredBuffer.entry, StoredBuffer.setName, hid, if_true]
        · simp only [Function.comp_apply, StoredBuffer.entry, hid, if_false]

theorem table_activate (st : Store) (now id : Nat) :
    (st.activate now id).table = { st.table with current := some id } := by
  simp only [table, activate, modify, List.map_map]
  congr 1
  refine List.map_congr_left fun other _ => ?_
  by_cases hid : other.id = id
  · simp only [Function.comp_apply, StoredBuffer.entry, StoredBuffer.touch, hid, if_true]
  · simp only [Function.comp_apply, hid, if_false]

theorem agrees_switchTo (st : Store) (now id : Nat) :
    st.Agrees (st.switchTo now id) (st.table.switchTo id) := by
  unfold switchTo Table.switchTo
  cases hsb : st.find? id with
  | none =>
    rw [if_pos (find?_table_eq_none hsb)]
    exact .error st _
  | some sb =>
    obtain ⟨rfl, -⟩ := find?_split hsb
    rw [if_neg (find?_table_ne_none hsb)]
    exact .ok (st.table_activate now sb.id)

/-! ## Removing an entry -/

theorem entries_table (hsplit : st.buffers = pre ++ sb :: post) :
    st.table.entries = pre.map StoredBuffer.entry ++ sb.entry :: post.map StoredBuffer.entry := by
  rw [table, hsplit, List.map_append, List.map_cons]

/-- The entries other than one have another id. -/
theorem Consistent.entry_ne (hc : st.Consistent) (hsplit : st.buffers = pre ++ sb :: post) :
    ∀ e ∈ (pre ++ post).map StoredBuffer.entry, (e.id != sb.id) = true := by
  intro e he
  obtain ⟨other, hother, rfl⟩ := List.mem_map.1 he
  exact bne_iff_ne.2 (hc.ne_id hsplit other hother)

theorem Consistent.neighbour?_table (hc : st.Consistent) (hsplit : st.buffers = pre ++ sb :: post) :
    st.table.neighbour? sb.id = (post.head?.or pre.getLast?).map StoredBuffer.entry := by
  have hne := hc.entry_ne hsplit
  rw [List.map_append] at hne
  have hpre : ∀ e ∈ pre.map StoredBuffer.entry, (e.id != sb.id) = true :=
    fun e he => hne e (List.mem_append_left _ he)
  rw [Table.neighbour?, entries_table hsplit, List.dropWhile_append_of_pos hpre,
    List.takeWhile_append_of_pos hpre, List.dropWhile_cons_of_neg (by simp [StoredBuffer.entry]),
    List.takeWhile_cons_of_neg (by simp [StoredBuffer.entry])]
  simp [Option.map_or]

theorem Consistent.filter_table (hc : st.Consistent) (hsplit : st.buffers = pre ++ sb :: post) :
    (st.table.entries.filter fun e => e.id != sb.id) = (pre ++ post).map StoredBuffer.entry := by
  rw [entries_table hsplit, List.filter_append,
    List.filter_cons_of_neg (by simp [StoredBuffer.entry]), ← List.filter_append, ← List.map_append]
  exact List.filter_eq_self.2 (hc.entry_ne hsplit)

theorem Consistent.delete_eq (hc : st.Consistent) (hsplit : st.buffers = pre ++ sb :: post) :
    st.delete sb.id = (.ok (),
      { st with
        buffers := pre ++ post
        current :=
          if st.current = some sb.id then (post.head?.or pre.getLast?).map StoredBuffer.id
          else st.current
        scratchCount := if sb.isScratch then st.scratchCount - 1 else st.scratchCount }) := by
  rw [Store.delete, hc.indexOf?_eq hsplit]
  simp only [removeAt_eq hsplit]

theorem agrees_delete (hc : st.Consistent) (id : Nat) :
    st.Agrees (st.delete id) (st.table.delete id) := by
  unfold Table.delete
  cases hsb : st.find? id with
  | none =>
    rw [if_pos (find?_table_eq_none hsb), Store.delete, indexOf?_eq_none hsb]
    exact .error st _
  | some sb =>
    obtain ⟨rfl, pre, post, hsplit⟩ := find?_split hsb
    rw [if_neg (find?_table_ne_none hsb), hc.delete_eq hsplit,
      hc.neighbour?_table hsplit, hc.filter_table hsplit, Option.map_map]
    exact .ok rfl

/-! ## By name -/

/-- Removing a buffer by its name is removing it by its id. -/
theorem Consistent.deleteName_eq (hc : st.Consistent) (name : String) :
    st.deleteName name =
      match st.findName? name with
      | none => (.error (.nameNotFound name), st)
      | some sb => st.delete sb.id := by
  cases hsb : st.findName? name with
  | none => rw [Store.deleteName, indexOfName?_eq_none hsb]
  | some sb =>
    obtain ⟨hname, pre, post, hsplit⟩ := findName?_split hsb
    rw [Store.deleteName, hc.indexOfName?_eq hsplit hname]
    simp only [Store.delete, hc.indexOf?_eq hsplit]

/-- Switching to a buffer by its name is switching to it by its id. -/
theorem Consistent.switchToName_eq (hc : st.Consistent) (now : Nat) (name : String) :
    st.switchToName now name =
      match st.findName? name with
      | none => (.error (.nameNotFound name), st)
      | some sb => (.ok sb.id, (st.switchTo now sb.id).2) := by
  unfold Store.switchToName
  cases hsb : st.findName? name with
  | none => rfl
  | some sb => simp only [Store.switchTo, hc.find?_eq (List.mem_of_find?_eq_some hsb)]

theorem agrees_deleteName (hc : st.Consistent) (name : String) :
    st.Agrees (st.deleteName name) (st.table.deleteName name) := by
  rw [hc.deleteName_eq, Table.deleteName, Table.byName, idOf?_table]
  cases st.findName? name with
  | none => exact .error st _
  | some sb => exact agrees_delete hc sb.id

theorem agrees_switchToName (hc : st.Consistent) (now : Nat) (name : String) :
    st.Agrees (st.switchToName now name) (st.table.switchToName name) := by
  rw [hc.switchToName_eq, Table.switchToName, Table.byName, idOf?_table]
  cases st.findName? name with
  | none => exact .error st _
  | some sb => exact .ok (st.agrees_switchTo now sb.id).table

/-- A name is looked up by looking up its id. -/
theorem Consistent.findName?_table (hc : st.Consistent) (name : String) :
    st.findName? name = (st.table.idOf? name).bind st.find? := by
  rw [idOf?_table]
  cases hsb : st.findName? name with
  | none => rfl
  | some sb => exact (hc.find?_eq (List.mem_of_find?_eq_some hsb)).symm

/-! ## The buffers themselves -/

/-- The buffer with this id is now `after`, and every other one is as it was. -/
structure ChangesOnly (st st' : Store) (id : Nat) (after : Option StoredBuffer) : Prop where
  here : st'.find? id = after
  elsewhere : ∀ other, other ≠ id → st'.find? other = st.find? other

theorem changesOnly_modify (st : Store) (id : Nat) {f : StoredBuffer → StoredBuffer}
    (hf : ∀ sb, (f sb).id = sb.id) (current : Option Nat) (count : Nat) :
    st.ChangesOnly { st.modify id f with current, scratchCount := count } id
      ((st.find? id).map f) := by
  refine ⟨?_, fun other hother => ?_⟩
  · refine (st.find?_modify id id hf).trans ?_
    cases hsb : st.find? id with
    | none => rfl
    | some sb => rw [Option.map_some, Option.map_some, if_pos (find?_split hsb).1]
  · refine (st.find?_modify id other hf).trans ?_
    cases hsb : st.find? other with
    | none => rfl
    | some sb => rw [Option.map_some, if_neg (by rw [(find?_split hsb).1]; exact hother)]

theorem Consistent.changesOnly_delete (hc : st.Consistent) {id : Nat}
    (heq : st.delete id = (.ok (), st')) : st.ChangesOnly st' id none := by
  cases hsb : st.find? id with
  | none =>
    rw [Store.delete, indexOf?_eq_none hsb] at heq
    cases heq
  | some sb =>
    obtain ⟨rfl, pre, post, hsplit⟩ := find?_split hsb
    rw [hc.delete_eq hsplit] at heq
    cases heq
    refine ⟨?_, fun other hother => ?_⟩
    · refine List.find?_eq_none.2 fun old hold => ?_
      simpa using hc.ne_id hsplit old hold
    · show (pre ++ post).find? _ = st.buffers.find? _
      rw [hsplit, List.find?_append, List.find?_append,
        List.find?_cons_of_neg (by simpa using Ne.symm hother)]

theorem Consistent.changesOnly_add (hc : st.Consistent) {mem : Memory} {now id : Nat}
    {name : Option String} (heq : st.add mem now name = (.ok id, st')) :
    ∃ b, GapBuffer.withCapacity mem st.settings.initialCapacity = .ok b ∧ b.contents = [] ∧
      st.ChangesOnly st' id (some (.create id name b st.settings.history now)) := by
  obtain ⟨b, hadmits, rfl, rfl⟩ := admits_of_ok heq
  -- the id is new, so no older buffer is found under it
  have hfresh : st.find? st.nextId = none := by
    refine List.find?_eq_none.2 fun old hold => ?_
    have := hc.numbered.below old.id (mem_ids hold)
    simp only [beq_iff_eq]
    omega
  refine ⟨b, hadmits.region, (GapBuffer.withCapacity_runs hadmits.region).1.contents, ?_,
    fun other hother => ?_⟩
  · show (st.buffers ++ [_]).find? _ = _
    rw [List.find?_append, show st.buffers.find? _ = none from hfresh]
    simp [newBuffer, StoredBuffer.create]
  · show (st.buffers ++ [_]).find? _ = st.buffers.find? _
    have hnew : ([st.newBuffer name b now].find? fun sb => sb.id == other) = none := by
      simpa [newBuffer, StoredBuffer.create] using Ne.symm hother
    rw [List.find?_append, hnew, Option.or_none]

theorem Consistent.changesOnly_create (hc : st.Consistent) {mem : Memory} {now id : Nat}
    {name : String} (heq : st.create mem now name = (.ok id, st')) :
    ∃ b, GapBuffer.withCapacity mem st.settings.initialCapacity = .ok b ∧ b.contents = [] ∧
      st.ChangesOnly st' id (some
        { id, name := some name, lifetime := .persistent, buffer := b,
          history := { settings := st.settings.history }, createdAt := now, lastAccess := now }) := by
  unfold Store.create at heq
  split at heq
  · cases heq
  · split at heq
    · cases heq
    · exact hc.changesOnly_add heq

theorem Consistent.changesOnly_createScratch (hc : st.Consistent) {mem : Memory} {now id : Nat}
    (heq : st.createScratch mem now = (.ok id, st')) :
    ∃ b, GapBuffer.withCapacity mem st.settings.initialCapacity = .ok b ∧ b.contents = [] ∧
      st.ChangesOnly st' id (some
        { id, name := none, lifetime := .scratch, buffer := b,
          history := { settings := st.settings.history }, createdAt := now, lastAccess := now }) := by
  unfold Store.createScratch at heq
  split at heq
  · cases heq
  · exact hc.changesOnly_add heq

theorem changesOnly_switchTo {now id : Nat} (heq : st.switchTo now id = (.ok (), st')) :
    st.ChangesOnly st' id ((st.find? id).map fun sb =>
      { sb with lastAccess := now, accessCount := sb.accessCount + 1 }) := by
  unfold switchTo at heq
  split at heq
  · cases heq
  · next sb hsb =>
    cases heq
    rw [(find?_split hsb).1]
    exact st.changesOnly_modify id (by intro sb; rfl) _ _

theorem changesOnly_rename {id : Nat} {name : String} (heq : st.rename id name = (.ok (), st')) :
    ∃ sb, st.find? id = some sb ∧
      st.ChangesOnly st' id (some { sb with name := some name, lifetime := .persistent }) := by
  unfold rename at heq
  split at heq
  · cases heq
  · next sb hsb =>
    split at heq
    · cases heq
    · split at heq
      · cases heq
      · cases heq
        have hchanges := st.changesOnly_modify id (f := (·.setName name)) (by intro sb; rfl)
          st.current (if sb.isScratch then st.scratchCount - 1 else st.scratchCount)
        rw [hsb] at hchanges
        exact ⟨sb, hsb, hchanges⟩

/-! ## Names after a change -/

theorem Consistent.findName?_eq_some (hc : st.Consistent) {name : String} :
    st.findName? name = some sb ↔ st.find? sb.id = some sb ∧ sb.name = some name := by
  constructor
  · intro hsb
    exact ⟨hc.find?_eq (List.mem_of_find?_eq_some hsb), (findName?_split hsb).1⟩
  · rintro ⟨hsb, hname⟩
    exact hc.findName?_eq (List.mem_of_find?_eq_some hsb) hname

/-- The buffer with this id goes by `name` now and is kept until it is deleted. The name that it had
goes to nobody, and the others stay where they are. -/
structure Renames (st st' : Store) (id : Nat) (name : String) : Prop where
  changes : st.ChangesOnly st' id ((st.find? id).map fun sb =>
    { sb with name := some name, lifetime := .persistent })
  given : st'.findName? name = (st.find? id).map fun sb =>
    { sb with name := some name, lifetime := .persistent }
  taken : ∀ old, (st.find? id).bind StoredBuffer.name = some old → old ≠ name →
    st'.findName? old = none
  others : ∀ other, other ≠ name → (st.find? id).bind StoredBuffer.name ≠ some other →
    st'.findName? other = st.findName? other

theorem Consistent.renames (hc : st.Consistent) {id : Nat} {name : String}
    (heq : st.rename id name = (.ok (), st')) : st.Renames st' id name := by
  have hc' := hc.rename id name
  rw [heq] at hc'
  obtain ⟨sb, hsb, hchanges⟩ := changesOnly_rename heq
  obtain ⟨rfl, -⟩ := find?_split hsb
  -- a buffer that has a name other than the new one is an old one
  have hold {other : StoredBuffer} {old : String} (hother : st'.findName? old = some other)
      (hne : old ≠ name) : other.id ≠ sb.id ∧ st.findName? old = some other := by
    obtain ⟨hfind, hname⟩ := hc'.findName?_eq_some.1 hother
    have hid : other.id ≠ sb.id := by
      intro hid
      rw [hid, hchanges.here] at hfind
      cases hfind
      cases hname
      exact hne rfl
    rw [hchanges.elsewhere other.id hid] at hfind
    exact ⟨hid, hc.findName?_eq_some.2 ⟨hfind, hname⟩⟩
  refine ⟨?_, ?_, fun old hname hne => ?_, fun other hne hname => ?_⟩
  · rw [hsb]
    exact hchanges
  · rw [hsb]
    exact hc'.findName?_eq_some.2 ⟨hchanges.here, rfl⟩
  · rw [hsb, Option.bind_some] at hname
    refine Option.eq_none_iff_forall_ne_some.2 fun other hother => ?_
    obtain ⟨hid, hfind⟩ := hold hother hne
    rw [hc.findName?_eq_some.2 ⟨hsb, hname⟩] at hfind
    cases hfind
    exact hid rfl
  · rw [hsb, Option.bind_some] at hname
    ext found
    refine ⟨fun hfound => (hold hfound hne).2, fun hfound => ?_⟩
    obtain ⟨hfind, hother⟩ := hc.findName?_eq_some.1 hfound
    have hid : found.id ≠ sb.id := by
      intro hid
      rw [hid, hsb] at hfind
      cases hfind
      exact hname hother
    rw [← hchanges.elsewhere found.id hid] at hfind
    exact hc'.findName?_eq_some.2 ⟨hfind, hother⟩

/-! ## Runs -/

/-- Every operation of the store is one of its table, and touches no buffer but its own. -/
structure RefinesTable (st : Store) : Prop where
  find : ∀ id, (st.find? id).map StoredBuffer.entry = st.table.find? id
  findName : ∀ name, st.findName? name = (st.table.idOf? name).bind st.find?
  create : ∀ mem now name, st.Agrees (st.create mem now name) (st.table.create mem name)
  createScratch : ∀ mem now, st.Agrees (st.createScratch mem now) (st.table.createScratch mem)
  rename : ∀ id name, st.Agrees (st.rename id name) (st.table.rename id name)
  switchTo : ∀ now id, st.Agrees (st.switchTo now id) (st.table.switchTo id)
  switchToName : ∀ now name, st.Agrees (st.switchToName now name) (st.table.switchToName name)
  delete : ∀ id, st.Agrees (st.delete id) (st.table.delete id)
  deleteName : ∀ name, st.Agrees (st.deleteName name) (st.table.deleteName name)
  /-- A new buffer is empty, and its history too. -/
  created : ∀ mem now name id st', st.create mem now name = (.ok id, st') →
    ∃ b, GapBuffer.withCapacity mem st.settings.initialCapacity = .ok b ∧ b.contents = [] ∧
      st.ChangesOnly st' id (some
        { id, name := some name, lifetime := .persistent, buffer := b,
          history := { settings := st.settings.history }, createdAt := now, lastAccess := now })
  createdScratch : ∀ mem now id st', st.createScratch mem now = (.ok id, st') →
    ∃ b, GapBuffer.withCapacity mem st.settings.initialCapacity = .ok b ∧ b.contents = [] ∧
      st.ChangesOnly st' id (some
        { id, name := none, lifetime := .scratch, buffer := b,
          history := { settings := st.settings.history }, createdAt := now, lastAccess := now })
  renamed : ∀ id name st', st.rename id name = (.ok (), st') → st.Renames st' id name
  /-- Only the access data of the entry change. -/
  switched : ∀ now id st', st.switchTo now id = (.ok (), st') →
    st.ChangesOnly st' id ((st.find? id).map fun sb =>
      { sb with lastAccess := now, accessCount := sb.accessCount + 1 })
  deleted : ∀ id st', st.delete id = (.ok (), st') → st.ChangesOnly st' id none
  /-- An operation by name is the one by id on the buffer that has the name. -/
  switchedByName : ∀ now name, st.switchToName now name =
    match st.findName? name with
    | none => (.error (.nameNotFound name), st)
    | some sb => (.ok sb.id, (st.switchTo now sb.id).2)
  deletedByName : ∀ name, st.deleteName name =
    match st.findName? name with
    | none => (.error (.nameNotFound name), st)
    | some sb => st.delete sb.id

theorem Consistent.refinesTable (hc : st.Consistent) : st.RefinesTable where
  find id := (st.find?_table id).symm
  findName := hc.findName?_table
  create := st.agrees_create
  createScratch := agrees_createScratch hc
  rename := agrees_rename hc
  switchTo := st.agrees_switchTo
  switchToName := agrees_switchToName hc
  delete := agrees_delete hc
  deleteName := agrees_deleteName hc
  created _ _ _ _ _ heq := hc.changesOnly_create heq
  createdScratch _ _ _ _ heq := hc.changesOnly_createScratch heq
  renamed _ _ _ heq := hc.renames heq
  switched _ _ _ heq := changesOnly_switchTo heq
  deleted _ _ heq := hc.changesOnly_delete heq
  switchedByName := hc.switchToName_eq
  deletedByName := hc.deleteName_eq

/-- After every run of operations on a new store, whatever their arguments and whatever an edit
leaves behind in a buffer, each operation answers and acts as it does on the table of ids and names,
by id and by name alike. Memory can refuse a creation twice, its region and its place in the list;
both are allocation failures that change nothing. -/
theorem run_refines_table (settings : Settings) (steps : List StoreStep) :
    (run { settings } steps).RefinesTable :=
  ((consistent_new settings).run steps).refinesTable

/-- A named buffer and a scratch buffer, of which the first is current. -/
def twoBuffers : Store :=
  run { settings := { initialCapacity := 4 } } [.create .ample 0 "notes", .createScratch .ample 5]

/-- The access data of the scratch buffer say when it was switched to, and those of the other buffer
stay. When memory has no place in the list for a third buffer, there is none. -/
theorem run_refines_table_switching : ∃ st',
    twoBuffers.switchTo 9 2 = (.ok (), st') ∧ twoBuffers.current = some 1 ∧ st'.current = some 2 ∧
      (st'.find? 2).map (fun sb => (sb.lastAccess, sb.accessCount)) = some (9, 1) ∧
      st'.find? 1 = twoBuffers.find? 1 ∧
      twoBuffers.createScratch { Memory.ample with slot := .error 256 } 12 =
        (.error (.allocationFailed 256), twoBuffers) := by
  have hrefines : twoBuffers.RefinesTable := run_refines_table { initialCapacity := 4 } _
  have hanswer : twoBuffers.switchTo 9 2 = (.ok (), (twoBuffers.switchTo 9 2).2) := rfl
  have hswitched := hrefines.switched 9 2 _ hanswer
  have hcreated := hrefines.createScratch { Memory.ample with slot := .error 256 } 12
  refine ⟨_, hanswer, by decide +kernel, rfl, ?_, hswitched.elsewhere 1 (by decide), ?_⟩
  · rw [hswitched.here]
    decide +kernel
  · have hfailed : (twoBuffers.createScratch { Memory.ample with slot := .error 256 } 12).1 =
        .error (.allocationFailed 256) := hcreated.answer.trans (by decide +kernel)
    exact Prod.ext hfailed (hcreated.refused _ hfailed)

end Store

end TextStore
