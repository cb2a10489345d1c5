import TextStore.Command.Args
import TextStore.Snapshot
import TextStore.Files.Tree
import TextStore.Script.Run
import TextStore.Text.Utf8

/-!
# What a run prints

* `Problem` : why a run failed, as a headline and its causes;
* `Output` : what goes to the screen when it did not;
* `Report` : the result of a command line, with `Report.exitCode`, `Report.stdout` and
  `Report.stderr`.
-/

namespace TextStore

inductive ReadError where
  | os (cause : OsError)
  | invalidUtf8
  deriving DecidableEq, Repr

def ReadError.message : ReadError → String
  | os cause => cause.message
  | invalidUtf8 => "stream did not contain valid UTF-8"

inductive Problem where
  | unreadableScript (path : String) (cause : ReadError)
  | invalidScript
  | failedRun (path : String) (failure : Failure)
  deriving DecidableEq, Repr

namespace Problem

def headline : Problem → String
  | unreadableScript path _ => "failed to read script " ++ path
  | invalidScript => "invalid edit script"
  | failedRun path _ => "while running " ++ path

/-- Why it went wrong, outermost cause first. -/
def causes : Problem → List String
  | unreadableScript _ cause => [cause.message]
  | invalidScript => []
  | failedRun _ failure => [failure.headline, failure.cause.message]

def lines (text : String) : List String := (text.toList.splitOn '\n').map String.ofList

/-- A cause after `label`; further lines of it are indented as far. -/
def showCause (label cause : String) : String :=
  let margin := String.ofList (List.replicate label.length ' ')
  label ++ String.intercalate ("\n" ++ margin) (lines cause)

/-- The causes one below the other; several are numbered from zero. -/
def showCauses (causes : List String) : List String :=
  if causes.length ≤ 1 then causes.map (showCause "    ")
  else causes.zipIdx.map fun (cause, n) => showCause ("    " ++ toString n ++ ": ") cause

def message (p : Problem) : String :=
  let explanation :=
    if p.causes.isEmpty then ""
    else "\n\nCaused by:\n" ++ String.intercalate "\n" (showCauses p.causes)
  "Error: " ++ p.headline ++ explanation ++ "\n"

end Problem

structure Output where
  /-- The text of the current buffer, unless it is kept back or there is none. -/
  contents : Option (List UInt8) := none
  dump : Option Snapshot := none
  deriving DecidableEq, Repr

def Output.text (o : Output) : String :=
  (match o.contents with
    | some bytes => Utf8.decodeLossy bytes
    | none => "") ++
  (match o.dump with
    | some dump => dump.toJson ++ "\n"
    | none => "")

/-- The output with every measured time at zero. -/
def Output.withoutTimes (o : Output) : Output := { o with dump := o.dump.map Snapshot.withoutTimes }

inductive Report where
  /-- Nothing was run. -/
  | stopped (reason : ArgsStop)
  /-- The script was run, or could not be; `warning` comes before everything else. -/
  | ran (warning : Option String) (result : Except Problem Output)

namespace Report

def exitCode : Report → Nat
  | stopped reason => reason.exitCode
  | ran _ (.ok _) => 0
  | ran _ (.error _) => 1

def stdout : Report → String
  | stopped .help => Args.helpText
  | stopped .version => Args.versionText
  | stopped _ => ""
  | ran _ (.ok output) => output.text
  | ran _ (.error _) => ""

/-- What goes to standard error; the wording of mistakes on the command line is left to the
caller. -/
def stderr : Report → String
  | stopped _ => ""
  | ran warning result =>
    warning.getD "" ++
      match result with
      | .ok _ => ""
      | .error problem => problem.message

def withoutTimes : Report → Report
  | ran warning (.ok output) => ran warning (.ok output.withoutTimes)
  | report => report

end Report

end TextStore
