import TextStore.Text.Quoted

/-!
# Edit scripts

* `Step` : one action of a script;
* `Script` : the actions in order;
* `Step.describe` : how a step is shown in a message.
-/

namespace TextStore

/-- One action of a script. Where it says nothing else, it acts on the current buffer. -/
inductive Step where
  /-- Creates a named buffer. -/
  | create (name : String)
  /-- Creates a scratch buffer. -/
  | scratch
  /-- Makes the named buffer current. -/
  | switch (name : String)
  /-- Renames the current buffer. -/
  | rename (name : String)
  /-- Deletes the named buffer. -/
  | delete (name : String)
  /-- Inserts a text. -/
  | insert (pos : Nat) (text : String)
  /-- Removes the text of `[start, stop)`. -/
  | erase (start stop : Nat)
  /-- Replaces the text of `[start, stop)`. -/
  | replace (start stop : Nat) (text : String)
  /-- Opens a sequence of the history. -/
  | beginSequence
  /-- Closes the open sequence of the history. -/
  | endSequence
  | undo
  | redo
  /-- Sets whether edits are refused. -/
  | readOnly (enabled : Bool)
  /-- Deletes the scratch buffers not used for longer than this. -/
  | cleanup (maxAgeMs : Nat)
  /-- Lets time pass. -/
  | pause (ms : Nat)
  deriving DecidableEq, Repr

structure Script where
  steps : List Step := []
  deriving DecidableEq, Repr

namespace Step

/-- The shown form of a step with fields. -/
def describeFields (title : String) (fields : List (String × String)) : String :=
  title ++ " \x7b " ++
    String.intercalate ", " (fields.map fun (name, value) => name ++ ": " ++ value) ++ " \x7d"

def describe : Step → String
  | create name => describeFields "Create" [("name", Text.quote name)]
  | scratch => "Scratch"
  | switch name => describeFields "Switch" [("name", Text.quote name)]
  | rename name => describeFields "Rename" [("name", Text.quote name)]
  | delete name => describeFields "Delete" [("name", Text.quote name)]
  | insert pos text => describeFields "Insert" [("pos", toString pos), ("text", Text.quote text)]
  | erase start stop =>
    describeFields "Erase" [("start", toString start), ("end", toString stop)]
  | replace start stop text =>
    describeFields "Replace"
      [("start", toString start), ("end", toString stop), ("text", Text.quote text)]
  | beginSequence => "Begin"
  | endSequence => "End"
  | undo => "Undo"
  | redo => "Redo"
  | readOnly enabled =>
    describeFields "ReadOnly" [("enabled", if enabled then "true" else "false")]
  | cleanup maxAgeMs => describeFields "Cleanup" [("max_age_ms", toString maxAgeMs)]
  | pause ms => describeFields "Pause" [("ms", toString ms)]

end Step

end TextStore
