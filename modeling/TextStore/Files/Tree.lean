/-!
# File trees

A directory with what is in it, as a value.

* `OsError` : why a path cannot be read or made, in the words of the operating system;
* `Place` : a place that a path can lead to, also outside of the directory;
* `FileTree` : the files and directories below a directory;
* `FileTree.read` : the bytes of a file;
* `FileTree.makeDirs` : makes a directory and those above it.
-/

namespace TextStore

/-- Why a path cannot be read or made. -/
inductive OsError where
  | notFound
  | notADirectory
  | isADirectory
  | fileExists
  | nameTooLong
  /-- Any other reason, already in words. -/
  | other (message : String)
  deriving DecidableEq, Repr

def OsError.message : OsError → String
  | notFound => "No such file or directory (os error 2)"
  | notADirectory => "Not a directory (os error 20)"
  | isADirectory => "Is a directory (os error 21)"
  | fileExists => "File exists (os error 17)"
  | nameTooLong => "File name too long (os error 36)"
  | other message => message

inductive FileEntry where
  | file (bytes : List UInt8)
  | directory
  deriving DecidableEq, Repr

/-! ## Places -/

/-- A place that a path can lead to. Names are given last one first. -/
inductive Place where
  /-- In the directory that paths start in, or further down. -/
  | below (names : List String)
  /-- One of the directories around it. Nothing else there is known. -/
  | above
  /-- From the root of all directories on. -/
  | system (names : List String)
  deriving DecidableEq, Repr

namespace Place

/-- The directory around a place. The root is in itself. -/
def outer : Place → Place
  | below [] => above
  | below (_ :: names) => below names
  | above => above
  | system names => system names.tail

/-- The place of this name in a directory. -/
def inner? (name : String) : Place → Option Place
  | below names => some (below (name :: names))
  | above => none
  | system names => some (system (name :: names))

end Place

/-- The directories that are in the root of every system. -/
def systemDirectories : List String :=
  ["bin", "boot", "dev", "etc", "home", "lib", "media", "mnt", "opt", "proc", "root", "run", "sbin",
    "srv", "sys", "tmp", "usr", "var"]

/-- What is known of the root of all directories: the usual directories, and the device that is
always empty. -/
def systemEntry? : List String → Option FileEntry
  | [] => some .directory
  | [name] => if systemDirectories.contains name then some .directory else none
  | ["dev", "null"] => some (.file [])
  | _ => none

def maxNameSize : Nat := 255

def maxPathSize : Nat := 4095

/-! ## Trees -/

/-- The files and directories below a directory, by the names that lead to them. The directories
above an entry need no entry of their own. -/
structure FileTree where
  entries : List (List String × FileEntry) := []
  deriving DecidableEq, Repr

namespace FileTree

/-- The names of a path, without empty ones. -/
def names (path : String) : List String :=
  ((path.toList.splitBy fun a b => (a == '/') == (b == '/')).map String.ofList).filter fun name =>
    !name.startsWith "/"

/-- The names that lead straight to a path below the directory. -/
def directNames (path : String) : List String :=
  let step (place : List String) (name : String) : List String :=
    if name == "." then place else if name == ".." then place.tail else name :: place
  ((names path).foldl step []).reverse

def add (tree : FileTree) (path : String) (entry : FileEntry) : FileTree :=
  { entries := (directNames path, entry) :: tree.entries }

def lookup? (tree : FileTree) (place : List String) : Option FileEntry :=
  match tree.entries.lookup place with
  | some entry => some entry
  | none =>
    if place.isEmpty || tree.entries.any fun entry => place.isPrefixOf entry.1 then some .directory
    else none

/-! ## Paths -/

def entry? (tree : FileTree) : Place → Option FileEntry
  | .below names => tree.lookup? names.reverse
  | .above => some .directory
  | .system names => systemEntry? names.reverse

/-- Follows names from `place` on, through directories only. -/
def walk (tree : FileTree) : (place : Place) → List String → Except OsError Place
  | place, [] => .ok place
  | place, name :: rest =>
    match tree.entry? place with
    | none => .error .notFound
    | some (.file _) => .error .notADirectory
    | some .directory =>
      if name == "." then tree.walk place rest
      else if name == ".." then tree.walk place.outer rest
      else if maxNameSize < name.utf8ByteSize then .error .nameTooLong
      else
        match place.inner? name with
        | none => .error .notFound
        | some place => tree.walk place rest

/-- What a path leads to. A path that ends in a slash leads to directories only, and one that starts
with a slash starts at the root of all directories. -/
def resolve (tree : FileTree) (path : String) : Except OsError FileEntry :=
  if path.isEmpty then .error .notFound
  else if maxPathSize < path.utf8ByteSize then .error .nameTooLong
  else
    match tree.walk (if path.startsWith "/" then .system [] else .below []) (names path) with
    | .error e => .error e
    | .ok place =>
      match tree.entry? place with
      | none => .error .notFound
      | some .directory => .ok .directory
      | some (.file bytes) =>
        if path.endsWith "/" then .error .notADirectory else .ok (.file bytes)

def read (tree : FileTree) (path : String) : Except OsError (List UInt8) :=
  match tree.resolve path with
  | .error e => .error e
  | .ok .directory => .error .isADirectory
  | .ok (.file bytes) => .ok bytes

def isDirectory (tree : FileTree) (path : String) : Bool :=
  match tree.resolve path with
  | .ok .directory => true
  | _ => false

/-- Makes a directory, and those above it that are missing. Nothing can be made at the root of all
directories. -/
def makeDirs (tree : FileTree) (path : String) : Except OsError Unit × FileTree :=
  match tree.resolve path with
  | .ok .directory => (.ok (), tree)
  | .ok (.file _) => (.error .fileExists, tree)
  | .error .notFound =>
    if path.startsWith "/" then (.error .notFound, tree) else (.ok (), tree.add path .directory)
  | .error e => (.error e, tree)

end FileTree

end TextStore
