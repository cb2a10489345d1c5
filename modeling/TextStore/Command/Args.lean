/-!
# Command lines

* `Args` : what a command line asks for;
* `ArgsStop` : why a command line leads to no run;
* `Args.parse` : reads the words of a command line.

Options may stand anywhere, short ones may be written together, and a value may stand in the word
after its option or in the same word. Everything after `--` is no option. Words are taken in order;
a value is checked when the next option or value is taken up, so that of two mistakes the earlier
one is reported, except that a word that cannot be taken at all goes before an unchecked value.
-/

namespace TextStore

structure Args where
  /-- The script to run. -/
  script : String
  /-- The settings to use in place of the default ones. -/
  config : Option String := none
  /-- Whether the state is dumped after the run. -/
  dump : Bool := false
  /-- Whether the text of the current buffer is kept back. -/
  quiet : Bool := false
  /-- Whether a log is written to a file. -/
  logFile : Bool := false
  deriving DecidableEq, Repr

/-- Why a command line leads to no run. -/
inductive ArgsStop where
  /-- The help text is asked for. -/
  | help
  /-- The version is asked for. -/
  | version
  /-- A word is no option and no value is expected. -/
  | unknownArgument
  /-- A value is missing or empty. -/
  | invalidValue
  /-- An option is given twice. -/
  | argumentConflict
  /-- A value is given to an option that has none. -/
  | tooManyValues
  /-- The script is missing. -/
  | missingScript
  deriving DecidableEq, Repr

/-- Help and version end well, and everything else is a mistake. -/
def ArgsStop.exitCode : ArgsStop → Nat
  | help => 0
  | version => 0
  | _ => 2

namespace Args

inductive Opt where
  | config
  | dump
  | quiet
  | logFile
  | help
  | version
  deriving DecidableEq

def Opt.ofLetter? : Char → Option Opt
  | 'c' => some config
  | 'd' => some dump
  | 'q' => some quiet
  | 'h' => some help
  | 'V' => some version
  | _ => none

def Opt.ofName? : String → Option Opt
  | "config" => some config
  | "dump" => some dump
  | "quiet" => some quiet
  | "log-file" => some logFile
  | "help" => some help
  | "version" => some version
  | _ => none

/-- A value that has been taken up and not yet checked. -/
inductive Unchecked where
  | script (value : String)
  /-- The settings, with their value once it has been found. -/
  | config (value : Option String)

structure Progress where
  script : Option String := none
  config : Option String := none
  dump : Bool := false
  quiet : Bool := false
  logFile : Bool := false
  unchecked : Option Unchecked := none
  /-- Whether a script has been taken up. -/
  hasScript : Bool := false

def Progress.setConfig (p : Progress) (value : String) : Except ArgsStop Progress :=
  if p.config.isSome then .error .argumentConflict
  else if value.isEmpty then .error .invalidValue
  else .ok { p with config := some value }

def Progress.check (p : Progress) : Except ArgsStop Progress :=
  let rest := { p with unchecked := none }
  match p.unchecked with
  | none => .ok p
  | some (.script value) =>
    if value.isEmpty then .error .invalidValue else .ok { rest with script := some value }
  | some (.config none) => .error .invalidValue
  | some (.config (some value)) => rest.setConfig value

/-- Sets a switch that must not be set yet. -/
def Progress.switch (p : Progress) (isSet : Bool) (set : Progress → Progress) :
    Except ArgsStop Progress :=
  if isSet then .error .argumentConflict else .ok (set p)

def Progress.takeSwitch (p : Progress) (opt : Opt) : Except ArgsStop Progress := do
  let p ← p.check
  match opt with
  | .config => return { p with unchecked := some (.config none) }
  | .dump => p.switch p.dump fun p => { p with dump := true }
  | .quiet => p.switch p.quiet fun p => { p with quiet := true }
  | .logFile => p.switch p.logFile fun p => { p with logFile := true }
  | .help => .error .help
  | .version => .error .version

/-- Takes up the settings with a value in the same word. -/
def Progress.takeConfig (p : Progress) (value : String) : Except ArgsStop Progress := do
  (← p.check).setConfig value

def Progress.takePositional (p : Progress) (word : String) : Except ArgsStop Progress :=
  if p.hasScript then .error .unknownArgument
  else do
    let p ← p.check
    return { p with unchecked := some (.script word), hasScript := true }

/-- Takes up options that are written as letters. The settings take the rest of the word as their
value, without an equals sign in front. -/
def Progress.takeLetters (p : Progress) : List Char → Except ArgsStop Progress
  | [] => .ok p
  | letter :: rest =>
    match Opt.ofLetter? letter with
    | none => .error .unknownArgument
    | some .config =>
      match rest with
      | [] => p.takeSwitch .config
      | '=' :: value => p.takeConfig (String.ofList value)
      | value => p.takeConfig (String.ofList value)
    | some opt => do (← p.takeSwitch opt).takeLetters rest

/-- Takes up an option that is written as a name, with a value after an equals sign or none. -/
def Progress.takeName (p : Progress) (word : List Char) : Except ArgsStop Progress :=
  let name := String.ofList (word.takeWhile (· != '='))
  match Opt.ofName? name, word.dropWhile (· != '=') with
  | none, _ => .error .unknownArgument
  | some opt, [] => p.takeSwitch opt
  | some .config, _ :: value => p.takeConfig (String.ofList value)
  | some _, _ :: _ => .error .tooManyValues

/-- Takes up a word that stands where a value or anything else may stand. -/
def Progress.takeWord (p : Progress) (word : String) : Except ArgsStop Progress :=
  match p.unchecked with
  | some (.config none) => .ok { p with unchecked := some (.config (some word)) }
  | _ => p.takePositional word

/-- Takes up words in order; `literal` says that no more options follow. -/
def Progress.takeAll (p : Progress) (literal : Bool) : List String → Except ArgsStop Progress
  | [] => .ok p
  | word :: rest =>
    if literal then do (← p.takePositional word).takeAll true rest
    else
      match word.toList with
      | ['-', '-'] => p.takeAll true rest
      | '-' :: '-' :: name => do (← p.takeName name).takeAll false rest
      | ['-'] => do (← p.takeWord word).takeAll false rest
      | '-' :: letters => do (← p.takeLetters letters).takeAll false rest
      | _ => do (← p.takeWord word).takeAll false rest

def parse (words : List String) : Except ArgsStop Args := do
  let p ← ({} : Progress).takeAll false words
  let p ← p.check
  match p.script with
  | none => .error .missingScript
  | some script =>
    return { script, config := p.config, dump := p.dump, quiet := p.quiet, logFile := p.logFile }

def versionText : String := "gapstore 0.1.0\n"

def helpText : String :=
  String.intercalate "\n"
    ["Replay edit scripts against gap buffers",
      "",
      "Usage: gapstore [OPTIONS] <SCRIPT>",
      "",
      "Arguments:",
      "  <SCRIPT>  YAML edit script to run",
      "",
      "Options:",
      "  -c, --config <FILE>  Config file to use instead of the default location",
      "  -d, --dump           Print a JSON dump of every buffer after the run",
      "  -q, --quiet          Don't print the current buffer's contents",
      "      --log-file       Also write a debug log to the logs directory",
      "  -h, --help           Print help",
      "  -V, --version        Print version",
      ""]

end Args

end TextStore
