import TextStore.Command.Run

/-!
# The program

Reads the command line, the environment and the files it names, waits where a script pauses, and
prints the report. Everything else is decided by `TextStore.Command`.
-/

namespace TextStore.Program

def osError : IO.Error → OsError
  | .noFileOrDirectory _ _ _ => .notFound
  | .alreadyExists _ _ _ => .fileExists
  | .inappropriateType _ code _ => if code == 21 then .isADirectory else .notADirectory
  | .invalidArgument (some _) _ _ => .nameTooLong
  | e => .other (toString e)

def read (path : String) : IO (Except OsError (List UInt8)) := do
  try
    return .ok (← IO.FS.readBinFile path).toList
  catch e => return .error (osError e)

/-- Makes the directory for logs if they are asked for. -/
def prepareLogs (args : Args) (paths : ConfigPaths) : IO (Option String) := do
  if args.logFile then
    try
      IO.FS.createDirAll paths.logs
      return none
    catch e => return some (Command.logsWarning paths.logs (osError e))
  else return none

/-- Waits for as long as a step asks for. -/
def wait : Step → IO Unit
  | .pause ms => IO.sleep ms.toUInt32
  | _ => return ()

/-- Performs steps by the clock on the wall. -/
def perform (number : Nat) : List Step → Session → IO (Except Failure Session)
  | [], s => return .ok s
  | step :: rest, s => do
    match { s with now := ← IO.monoMsNow : Session }.apply .host step with
    | (.error cause, _) => return .error { number, step, cause }
    | (.ok (), s) =>
      wait step
      perform (number + 1) rest s

/-- Runs a script as `Command.runScript` does, with real pauses. -/
def runScript (args : Args) (settings : Settings) (script : Script) :
    IO (Except Problem Output) := do
  match ← perform 1 script.steps { store := { settings } } with
  | .error failure => return .error (.failedRun args.script failure)
  | .ok s => return .ok (Command.finish args { s with now := ← IO.monoMsNow })

def run (args : Args) : IO Report := do
  let env : Environment :=
    { configHome := ← IO.getEnv "XDG_CONFIG_HOME", home := (← IO.getEnv "HOME").getD "" }
  let paths := env.configPaths
  let warning ← prepareLogs args paths
  let settings := Settings.ofFile (← read (Command.configPath args paths)).toOption
  match Script.ofFile args.script (← read args.script) with
  | .error problem => return .ran warning (.error problem)
  | .ok script => return .ran warning (← runScript args settings script)

/-- What is said about a mistake on the command line. -/
def usage : String :=
  "error: invalid command line\n\nUsage: gapstore [OPTIONS] <SCRIPT>\n\n" ++
    "For more information, try '--help'.\n"

end TextStore.Program

open TextStore in
/-- Runs the command line and prints its report. -/
def main (words : List String) : IO UInt32 := do
  let report ←
    match Args.parse words with
    | .error reason => pure (Report.stopped reason)
    | .ok args => Program.run args
  (← IO.getStdout).putStr report.stdout
  (← IO.getStderr).putStr (if report.exitCode = 2 then Program.usage else report.stderr)
  return report.exitCode.toUInt32
