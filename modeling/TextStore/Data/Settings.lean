import TextStore.Settings
import TextStore.Data.Datum

/-!
# Settings as data

* `HistorySettings.encode`, `Settings.encode` : settings written down, every field by name;
* `HistorySettings.decode?`, `Settings.decode?` : settings read back; a field that is not given
  keeps its default, and a field that is no setting is ignored.
-/

namespace TextStore

variable {ν : Type} [Encoded ν]

/-- The word under `name`, or `default` when there is none. -/
def wordField? (fields : List (String × ν)) (name : String) (default : Nat) : Option Nat :=
  match fields.lookup name with
  | none => some default
  | some value => Encoded.word? value

namespace HistorySettings

def fieldNames : List String := ["max_sequences", "max_memory", "sequence_timeout_ms"]

def encode (c : HistorySettings) : Datum :=
  .record
    [("max_sequences", .nat c.maxSequences),
      ("max_memory", .nat c.maxMemory),
      ("sequence_timeout_ms", .nat c.windowMs)]

def decode? (value : ν) : Option HistorySettings := do
  let fields ← Encoded.fields? fieldNames value
  let fallback : HistorySettings := {}
  let maxSequences ← wordField? fields "max_sequences" fallback.maxSequences
  let maxMemory ← wordField? fields "max_memory" fallback.maxMemory
  let windowMs ← wordField? fields "sequence_timeout_ms" fallback.windowMs
  return { maxSequences, maxMemory, windowMs }

end HistorySettings

namespace Settings

def fieldNames : List String :=
  ["initial_capacity", "max_buffers", "max_scratch_buffers", "history"]

def encode (c : Settings) : Datum :=
  .record
    [("initial_capacity", .nat c.initialCapacity),
      ("max_buffers", .nat c.maxBuffers),
      ("max_scratch_buffers", .nat c.maxScratchBuffers),
      ("history", c.history.encode)]

def decode? (value : ν) : Option Settings := do
  let fields ← Encoded.fields? fieldNames value
  let fallback : Settings := {}
  let initialCapacity ← wordField? fields "initial_capacity" fallback.initialCapacity
  let maxBuffers ← wordField? fields "max_buffers" fallback.maxBuffers
  let maxScratchBuffers ← wordField? fields "max_scratch_buffers" fallback.maxScratchBuffers
  let history ←
    match fields.lookup "history" with
    | none => some fallback.history
    | some history => HistorySettings.decode? history
  return { initialCapacity, maxBuffers, maxScratchBuffers, history }

end Settings

end TextStore
