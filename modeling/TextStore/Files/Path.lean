/-!
# Paths

* `Path.join` : a name below a directory; nothing is normalized;
* `ConfigPaths` : where settings and logs are kept, from the environment.
-/

namespace TextStore

/-- The path of `name` below `base`. -/
def Path.join (base name : String) : String :=
  if base.isEmpty || base.endsWith "/" then base ++ name else base ++ "/" ++ name

/-- The directories that an environment names. -/
structure Environment where
  /-- The directory of all settings, if one is named; it may be named as the empty path. -/
  configHome : Option String
  home : String
  deriving DecidableEq, Repr

/-- The places that belong to this program. -/
structure ConfigPaths where
  /-- The directory of its settings. -/
  dir : String
  /-- The file that settings are read from. -/
  file : String
  /-- The directory that logs are written to. -/
  logs : String
  deriving DecidableEq, Repr

def Environment.configPaths (env : Environment) : ConfigPaths :=
  let base := env.configHome.getD (Path.join env.home ".config")
  let dir := Path.join base "gapstore"
  { dir, file := Path.join dir "config.yaml", logs := Path.join dir "logs" }

end TextStore
