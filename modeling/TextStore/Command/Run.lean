import TextStore.Command.Report
import TextStore.Files.Path
import TextStore.Script.Run
import TextStore.Yaml.Value

/-!
# Running a command line

* `Settings.ofFile` : the settings in a file, or the defaults;
* `Script.ofFile` : the script in a file;
* `Command.logsWarning` : what is said when logs cannot be kept;
* `Command.finish` : the end of a run;
* `Command.run` : a command line in a file tree.
-/

namespace TextStore

/-- The settings in a file; any problem with it leaves the defaults. -/
def Settings.ofFile (content : Option (List UInt8)) : Settings :=
  ((content.bind Utf8.decode?).bind Settings.parse?).getD {}

def Script.ofFile (path : String) (content : Except OsError (List UInt8)) :
    Except Problem Script :=
  match content with
  | .error e => .error (.unreadableScript path (.os e))
  | .ok bytes =>
    match Utf8.decode? bytes with
    | none => .error (.unreadableScript path .invalidUtf8)
    | some text =>
      match Script.parse? text with
      | none => .error .invalidScript
      | some script => .ok script

namespace Command

/-- What is said when the directory for logs cannot be made. -/
def logsWarning (logs : String) (e : OsError) : String :=
  "Warning: Could not initialize file logging: Failed to create directory " ++ logs ++ ": " ++
    e.message ++ "\n"

def finish (args : Args) (s : Session) : Output where
  contents :=
    if args.quiet then none else s.store.currentBuffer?.map fun sb => sb.buffer.contents
  dump := if args.dump then some (Snapshot.capture s.now s.store) else none

def configPath (args : Args) (paths : ConfigPaths) : String := args.config.getD paths.file

def runScript (mem : Memory) (args : Args) (settings : Settings) (script : Script) :
    Except Problem Output :=
  match script.run mem { store := { settings } } with
  | (.error failure, _) => .error (.failedRun args.script failure)
  | (.ok _, s) => .ok (finish args s)

/-- Makes the directory for logs if they are asked for; the answer is a warning if that fails. -/
def prepareLogs (args : Args) (paths : ConfigPaths) (tree : FileTree) : Option String × FileTree :=
  if args.logFile then
    match tree.makeDirs paths.logs with
    | (.ok (), tree) => (none, tree)
    | (.error e, tree) => (some (logsWarning paths.logs e), tree)
  else (none, tree)

/-- Runs a command line in a file tree; the answer is the report and the tree afterwards. -/
def run (mem : Memory) (env : Environment) (tree : FileTree) (words : List String) :
    Report × FileTree :=
  match Args.parse words with
  | .error reason => (.stopped reason, tree)
  | .ok args =>
    let paths := env.configPaths
    let (warning, tree) := prepareLogs args paths tree
    let settings := Settings.ofFile (tree.read (configPath args paths)).toOption
    let result := do
      let script ← Script.ofFile args.script (tree.read args.script)
      runScript mem args settings script
    (.ran warning result, tree)

end Command

end TextStore
