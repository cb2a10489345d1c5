import TextStore.Data.Datum
import TextStore.Script.Step

/-!
# Scripts as data

A step is a record whose entry `op` names its kind, or a list of the kind and the fields.

* `Step.encode`, `Script.encode` : a script written down;
* `Step.ofTagged?`, `Script.decode?` : a script read back.
-/

namespace TextStore

namespace Step

/-- The entry that names the kind of a step. -/
def tagKey : String := "op"

def kindName : Step → String
  | create _ => "create"
  | scratch => "scratch"
  | switch _ => "switch"
  | rename _ => "rename"
  | delete _ => "delete"
  | insert _ _ => "insert"
  | erase _ _ => "erase"
  | replace _ _ _ => "replace"
  | beginSequence => "begin"
  | endSequence => "end"
  | undo => "undo"
  | redo => "redo"
  | readOnly _ => "read_only"
  | cleanup _ => "cleanup"
  | pause _ => "pause"

def fields : Step → List (String × Datum)
  | create name => [("name", .text name)]
  | switch name => [("name", .text name)]
  | rename name => [("name", .text name)]
  | delete name => [("name", .text name)]
  | insert pos text => [("pos", .nat pos), ("text", .text text)]
  | erase start stop => [("start", .nat start), ("end", .nat stop)]
  | replace start stop text => [("start", .nat start), ("end", .nat stop), ("text", .text text)]
  | readOnly enabled => [("enabled", .bool enabled)]
  | cleanup maxAgeMs => [("max_age_ms", .nat maxAgeMs)]
  | pause ms => [("ms", .nat ms)]
  | scratch => []
  | beginSequence => []
  | endSequence => []
  | undo => []
  | redo => []

def encode (step : Step) : Datum :=
  .record ((tagKey, .text step.kindName) :: step.fields)

/-- Reads the body of a step without fields: any entries at all, or an empty list. -/
def bare? (step : Step) : Datum → Option Step
  | .map _ => some step
  | .list [] => some step
  | _ => none

def textField? (fields : List (String × Datum)) (name : String) : Option String :=
  (fields.lookup name).bind Datum.text?

def wordField? (fields : List (String × Datum)) (name : String) : Option Nat :=
  (fields.lookup name).bind Datum.word?

def boolField? (fields : List (String × Datum)) (name : String) : Option Bool :=
  (fields.lookup name).bind Datum.bool?

/-- Reads a step that has only a name. -/
def named? (make : String → Step) (body : Datum) : Option Step := do
  let fields ← body.fields? ["name"]
  return make (← textField? fields "name")

/-- Reads a step from its kind and the rest of its data. -/
def ofTagged? (kind : String) (body : Datum) : Option Step :=
  match kind with
  | "create" => named? .create body
  | "scratch" => bare? .scratch body
  | "switch" => named? .switch body
  | "rename" => named? .rename body
  | "delete" => named? .delete body
  | "insert" => do
    let fields ← body.fields? ["pos", "text"]
    return .insert (← wordField? fields "pos") (← textField? fields "text")
  | "erase" => do
    let fields ← body.fields? ["start", "end"]
    return .erase (← wordField? fields "start") (← wordField? fields "end")
  | "replace" => do
    let fields ← body.fields? ["start", "end", "text"]
    return .replace (← wordField? fields "start") (← wordField? fields "end")
      (← textField? fields "text")
  | "begin" => bare? .beginSequence body
  | "end" => bare? .endSequence body
  | "undo" => bare? .undo body
  | "redo" => bare? .redo body
  | "read_only" => do
    let fields ← body.fields? ["enabled"]
    return .readOnly (← boolField? fields "enabled")
  | "cleanup" => do
    let fields ← body.fields? ["max_age_ms"]
    return .cleanup (← wordField? fields "max_age_ms")
  | "pause" => do
    let fields ← body.fields? ["ms"]
    return .pause (← wordField? fields "ms")
  | _ => none

end Step

namespace Script

def encode (script : Script) : Datum :=
  .record [("steps", .list (script.steps.map Step.encode))]

variable {ν : Type} [Encoded ν]

def decodeSteps? (value : ν) : Option (List Step) := do
  let steps ← Encoded.taggedList? Step.tagKey value
  steps.mapM fun (kind, body) => Step.ofTagged? kind body

/-- Reads a script; one without steps is empty. -/
def decode? (value : ν) : Option Script := do
  let fields ← Encoded.fields? ["steps"] value
  match fields.lookup "steps" with
  | none => return {}
  | some steps => return { steps := ← decodeSteps? steps }

end Script

end TextStore
