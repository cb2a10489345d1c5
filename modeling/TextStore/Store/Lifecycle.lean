import TextStore.Store.Basic

/-!
# Creating, removing and switching buffers

* `create`, `createScratch` : add a buffer;
* `delete`, `deleteName`, `removeStale` : remove buffers;
* `switchTo`, `switchToName` : make another buffer current;
* `rename` : gives a buffer a name.
-/

namespace TextStore.Store

/-! ## Creating -/

/-- Adds an empty buffer; it becomes current if no buffer is. -/
def add (mem : Memory) (now : Nat) (st : Store) (name : Option String) :
    Except StoreError Nat × Store :=
  if st.settings.maxBuffers ≤ st.size then (.error (.maxBuffers st.settings.maxBuffers), st)
  else
    match GapBuffer.withCapacity mem st.settings.initialCapacity with
    | .error _ => (.error (.allocationFailed st.settings.initialCapacity), st)
    | .ok buffer =>
      match mem.slot with
      | .error bytes => (.error (.allocationFailed bytes), st)
      | .ok () =>
        let id := st.nextId
        let sb := StoredBuffer.create id name buffer st.settings.history now
        (.ok id,
          { st with
            buffers := st.buffers ++ [sb]
            current := st.current.or (some id)
            nextId := id + 1
            scratchCount := if sb.isScratch then st.scratchCount + 1 else st.scratchCount })

def create (mem : Memory) (now : Nat) (st : Store) (name : String) :
    Except StoreError Nat × Store :=
  if name.isEmpty then (.error .invalidName, st)
  else if st.containsName name then (.error (.bufferExists name), st)
  else st.add mem now (some name)

def createScratch (mem : Memory) (now : Nat) (st : Store) : Except StoreError Nat × Store :=
  if st.settings.maxScratchBuffers ≤ st.scratchCount then
    (.error (.maxBuffers st.settings.maxScratchBuffers), st)
  else st.add mem now none

/-! ## Removing -/

/-- The buffer next to place `index`: the one after it, or else the one before it. -/
def neighbour? (st : Store) (index : Nat) : Option StoredBuffer :=
  st.buffers[index + 1]?.or
    (match index with
      | 0 => none
      | before + 1 => st.buffers[before]?)

/-- Removes the buffer at place `index`; a neighbour becomes current if it was. -/
def removeAt (st : Store) (index : Nat) : Store :=
  match st.buffers[index]? with
  | none => st
  | some sb =>
    { st with
      buffers := st.buffers.eraseIdx index
      current :=
        if st.current = some sb.id then (st.neighbour? index).map StoredBuffer.id else st.current
      scratchCount := if sb.isScratch then st.scratchCount - 1 else st.scratchCount }

def delete (st : Store) (id : Nat) : Except StoreError Unit × Store :=
  match st.indexOf? id with
  | none => (.error (.bufferNotFound id), st)
  | some index => (.ok (), st.removeAt index)

def deleteName (st : Store) (name : String) : Except StoreError Unit × Store :=
  match st.indexOfName? name with
  | none => (.error (.nameNotFound name), st)
  | some index => (.ok (), st.removeAt index)

/-- Removes the buffer with this id, if there is one. -/
def discard (st : Store) (id : Nat) : Store :=
  match st.indexOf? id with
  | none => st
  | some index => st.removeAt index

def isStale (now maxAge : Nat) (sb : StoredBuffer) : Bool :=
  sb.isScratch && decide (maxAge < sb.idleFor now)

/-- Removes the scratch buffers that were not used for more than `maxAge` milliseconds, oldest
first, and answers how many they were. -/
def removeStale (st : Store) (now maxAge : Nat) : Nat × Store :=
  -- the places of buffers shift while others are removed, so the stale ones are named by their ids
  let stale := (st.buffers.filter (isStale now maxAge)).map StoredBuffer.id
  (stale.length, stale.foldl discard st)

/-! ## Switching and renaming -/

/-- Makes the buffer with this id current and counts the switch. -/
def activate (now : Nat) (st : Store) (id : Nat) : Store :=
  { st.modify id (StoredBuffer.touch · now) with current := some id }

def switchTo (now : Nat) (st : Store) (id : Nat) : Except StoreError Unit × Store :=
  match st.find? id with
  | none => (.error (.bufferNotFound id), st)
  | some sb => (.ok (), st.activate now sb.id)

/-- Makes the buffer with this name current and answers its id. -/
def switchToName (now : Nat) (st : Store) (name : String) : Except StoreError Nat × Store :=
  match st.findName? name with
  | none => (.error (.nameNotFound name), st)
  | some sb => (.ok sb.id, st.activate now sb.id)

/-- Renames a buffer; a scratch buffer becomes persistent by it. -/
def rename (st : Store) (id : Nat) (name : String) : Except StoreError Unit × Store :=
  match st.find? id with
  | none => (.error (.bufferNotFound id), st)
  | some sb =>
    if name.isEmpty then (.error .invalidName, st)
    else if st.buffers.any fun other => other.id != id && other.name == some name then
      (.error (.bufferExists name), st)
    else
      (.ok (),
        { st.modify id (StoredBuffer.setName · name) with
          scratchCount := if sb.isScratch then st.scratchCount - 1 else st.scratchCount })

end TextStore.Store
