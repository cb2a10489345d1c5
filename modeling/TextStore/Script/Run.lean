import TextStore.Script.Session

/-!
# Running scripts

* `Failure` : which step failed, and why;
* `Summary` : what a script that ran to its end reports;
* `Script.run` : all steps in order, up to the first that fails.
-/

namespace TextStore

structure Failure where
  /-- The number of the step, counted from one. -/
  number : Nat
  step : Step
  cause : StepError
  deriving DecidableEq, Repr

namespace Failure

def headline (f : Failure) : String := s!"step {f.number} ({f.step.describe}) failed"

def message (f : Failure) : String := f.headline ++ ": " ++ f.cause.message

end Failure

/-- What a script that ran to its end reports. -/
structure Summary where
  /-- The number of steps. -/
  steps : Nat
  /-- The cursor after the last step. -/
  cursor : Nat
  deriving DecidableEq, Repr

namespace Script

/-- Performs steps in order, the first of them being number `number`, up to one that fails. -/
def runFrom (mem : Memory) : (number : Nat) → List Step → Session → Except Failure Unit × Session
  | _, [], s => (.ok (), s)
  | number, step :: rest, s =>
    match s.apply mem step with
    | (.error cause, s') => (.error { number, step, cause }, s')
    | (.ok (), s') => runFrom mem (number + 1) rest s'

/-- Runs a script on a session; the cursor starts at zero. -/
def run (mem : Memory) (script : Script) (s : Session) : Except Failure Summary × Session :=
  match runFrom mem 1 script.steps { s with cursor := 0 } with
  | (.error e, s') => (.error e, s')
  | (.ok (), s') => (.ok { steps := script.steps.length, cursor := s'.cursor }, s')

end Script

end TextStore
