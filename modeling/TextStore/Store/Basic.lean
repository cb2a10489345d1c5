import TextStore.Store.Buffer

/-!
# Stores

A store holds buffers in the order they were created, and knows which of them is current.

* `StoreError` : why an operation is refused, with its wording;
* `Store` : the buffers, the current id, the next id and the settings;
* `find?`, `findName?`, `currentBuffer?` : look a buffer up;
* `update` : lets an operation act on one buffer.

Ids are handed out in increasing order and never twice.
-/

namespace TextStore

inductive StoreError where
  /-- No buffer has this id. -/
  | bufferNotFound (id : Nat)
  /-- No buffer has this name. -/
  | nameNotFound (name : String)
  /-- Another buffer has this name. -/
  | bufferExists (name : String)
  /-- The name is empty. -/
  | invalidName
  /-- There are as many buffers as the limit allows. -/
  | maxBuffers (limit : Nat)
  /-- The first region of the new buffer was refused, or its place in the list. -/
  | allocationFailed (requested : Nat)
  deriving DecidableEq, Repr

namespace StoreError

def message : StoreError → String
  | bufferNotFound id => s!"buffer {id} not found"
  | nameNotFound name => s!"buffer '{name}' not found"
  | bufferExists name => s!"buffer '{name}' already exists"
  | invalidName => "buffer name must not be empty"
  | maxBuffers limit => s!"buffer limit of {limit} reached"
  | allocationFailed requested => s!"failed to allocate {requested} bytes for buffer"

/-- Whether the buffer that was asked for does not exist. -/
def isNotFound : StoreError → Bool
  | bufferNotFound _ => true
  | nameNotFound _ => true
  | _ => false

end StoreError

/-- Buffers, one of them current. -/
structure Store where
  settings : Settings := {}
  /-- All buffers, oldest first. -/
  buffers : List StoredBuffer := []
  /-- The id of the current buffer. -/
  current : Option Nat := none
  nextId : Nat := 1
  /-- The number of scratch buffers. -/
  scratchCount : Nat := 0
  deriving DecidableEq, Repr

namespace Store

/-! ## Looking up -/

def indexOf? (st : Store) (id : Nat) : Option Nat := st.buffers.findIdx? fun sb => sb.id == id

def indexOfName? (st : Store) (name : String) : Option Nat :=
  st.buffers.findIdx? fun sb => sb.name == some name

def find? (st : Store) (id : Nat) : Option StoredBuffer :=
  st.buffers.find? fun sb => sb.id == id

def findName? (st : Store) (name : String) : Option StoredBuffer :=
  st.buffers.find? fun sb => sb.name == some name

def currentBuffer? (st : Store) : Option StoredBuffer := st.current.bind st.find?

def contains (st : Store) (id : Nat) : Bool := (st.indexOf? id).isSome

def containsName (st : Store) (name : String) : Bool := (st.indexOfName? name).isSome

def ids (st : Store) : List Nat := st.buffers.map StoredBuffer.id

def size (st : Store) : Nat := st.buffers.length

def namedCount (st : Store) : Nat := st.size - st.scratchCount

/-! ## Acting on one buffer -/

/-- Replaces the buffer with this id by what `f` makes of it. -/
def modify (st : Store) (id : Nat) (f : StoredBuffer → StoredBuffer) : Store :=
  { st with buffers := st.buffers.map fun sb => if sb.id = id then f sb else sb }

/-- Performs `f` on the buffer with this id and answers what it answers. Only the text and the
history can be changed in this way, and nothing happens when there is no such buffer. -/
def update {α : Type} (st : Store) (id : Nat) (f : StoredBuffer → α × StoredBuffer) :
    Option α × Store :=
  match st.find? id with
  | none => (none, st)
  | some sb =>
    match f sb with
    | (answer, sb') =>
      (some answer, st.modify id fun sb => { sb with buffer := sb'.buffer, history := sb'.history })

end Store

end TextStore
