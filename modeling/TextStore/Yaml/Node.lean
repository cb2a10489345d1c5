import TextStore.Yaml.Token

/-!
# YAML nodes

* `Scalar`, `Node` : the tree that the tokens of one document describe;
* `Document` : a tree with the nodes its aliases stand for;
* `Document.ofTokens?` : the only document of a token list.

An anchor gets the slot numbered by how many anchor names are known when it is set. An alias stands
for the last node that was started in the slot of its name.
-/

namespace TextStore.Yaml

structure Scalar where
  text : String
  style : ScalarStyle
  tag : Option TagText
  deriving DecidableEq, Repr

inductive Node where
  | scalar (s : Scalar)
  | sequence (tag : Option TagText) (items : List Node)
  | mapping (tag : Option TagText) (entries : List (Node × Node))
  /-- The node in a slot. -/
  | alias (slot : Nat)
  deriving Repr

structure Document where
  /-- Nothing when the text holds no document. -/
  root : Option Node
  /-- The node in each slot. -/
  slots : List (Nat × Node)

/-- The node that stands where a node is left out. -/
def Node.absent : Node := .scalar { text := "", style := .plain, tag := none }

/-! ## Reading tokens -/

structure Reader where
  tokens : List Token
  /-- What tag handles stand for. -/
  handles : List (String × TagText) := []
  /-- The slot of each anchor name. -/
  names : List (String × Nat) := []
  /-- For each slot the number of the anchor that was set in it last, last anchor first. -/
  starts : List (Nat × Nat) := []
  /-- The node of each anchor, by the anchor's number. -/
  nodes : List (Nat × Node) := []

/-- A step of reading, which may fail. -/
abbrev Read := StateT Reader Option

namespace Read

def refuse {α : Type} : Read α := fun _ => none

def peek : Read Token := fun r =>
  match r.tokens with
  | [] => some (.streamEnd, r)
  | t :: _ => some (t, r)

def skip : Read Unit := fun r => some ((), { r with tokens := r.tokens.tail })

/-- Takes the next token if it is `t`. -/
def accept (t : Token) : Read Bool := do
  if (← peek) == t then
    skip
    return true
  else return false

def nextIn (ts : List Token) : Read Bool := do return ts.contains (← peek)

/-- Sets an anchor at the node that starts here; the answer is the number of the anchor. -/
def setAnchor (name : String) : Read Nat := fun r =>
  let slot := r.names.length
  let number := r.starts.length
  some (number,
    { r with
      names := (name, slot) :: r.names.filter fun entry => entry.1 != name
      starts := (slot, number) :: r.starts })

/-- Notes the node that an anchor was set at. -/
def setNode (number : Option Nat) (node : Node) : Read Node := fun r =>
  match number with
  | none => some (node, r)
  | some number => some (node, { r with nodes := (number, node) :: r.nodes })

/-- The node an alias stands for; an unknown name is refused. -/
def resolveAlias (name : String) : Read Node := fun r =>
  (r.names.lookup name).map fun slot => (.alias slot, r)

/-- The tag that a handle and a suffix make. -/
def resolveTag (handle : String) (suffix : TagText) : Read TagText := fun r =>
  if handle.isEmpty then some (suffix, r)
  else (r.handles.lookup handle).map fun start => (start ++ suffix, r)

/-! ## Nodes -/

structure Properties where
  anchor : Option Nat := none
  tag : Option TagText := none

def anchor? : Read (Option Nat) := do
  match ← peek with
  | .anchor name =>
    skip
    return some (← setAnchor name)
  | _ => return none

def tag? : Read (Option TagText) := do
  match ← peek with
  | .tag handle suffix =>
    skip
    return some (← resolveTag handle suffix)
  | _ => return none

/-- Reads an anchor and a tag, in any order. -/
def properties : Read Properties := do
  let anchor ← anchor?
  let tag ← tag?
  match anchor with
  | some _ => return { anchor, tag }
  | none => return { anchor := ← anchor?, tag }

/-- Where a node stands. -/
inductive Place where
  /-- Inside brackets. -/
  | flow
  /-- In a block. -/
  | block
  /-- The key or value of a block mapping, where a sequence need not be indented. -/
  | entry
  deriving DecidableEq

/-- A node of which only the properties are given. -/
def bare (p : Properties) : Read Node :=
  if p.anchor.isNone && p.tag.isNone then refuse
  else setNode p.anchor (.scalar { text := "", style := .plain, tag := p.tag })

mutual

def node (place : Place) : (fuel : Nat) → Read Node
  | 0 => refuse
  | fuel + 1 => do
    match ← peek with
    | .alias name =>
      skip
      resolveAlias name
    | _ =>
      let p ← properties
      match ← peek with
      | .scalar text style =>
        skip
        setNode p.anchor (.scalar { text, style, tag := p.tag })
      | .flowSequenceStart =>
        skip
        setNode p.anchor (.sequence p.tag (← flowSequence true fuel))
      | .flowMappingStart =>
        skip
        setNode p.anchor (.mapping p.tag (← flowMapping true fuel))
      | .blockEntry =>
        if place = .entry then setNode p.anchor (.sequence p.tag (← plainSequence fuel))
        else bare p
      | .blockSequenceStart =>
        if place = .flow then bare p
        else
          skip
          setNode p.anchor (.sequence p.tag (← blockSequence fuel))
      | .blockMappingStart =>
        if place = .flow then bare p
        else
          skip
          setNode p.anchor (.mapping p.tag (← blockMapping fuel))
      | _ => bare p

/-- Reads a node, unless one of `stops` comes next. -/
def nodeUnless (stops : List Token) (place : Place) : (fuel : Nat) → Read Node
  | 0 => refuse
  | fuel + 1 => do if ← nextIn stops then return .absent else node place fuel

def blockSequence : (fuel : Nat) → Read (List Node)
  | 0 => refuse
  | fuel + 1 => do
    if ← accept .blockEntry then
      let item ← nodeUnless [.blockEntry, .blockEnd] .block fuel
      return item :: (← blockSequence fuel)
    else if ← accept .blockEnd then return []
    else refuse

/-- Reads the elements of a block sequence that is not indented. -/
def plainSequence : (fuel : Nat) → Read (List Node)
  | 0 => refuse
  | fuel + 1 => do
    if ← accept .blockEntry then
      let item ← nodeUnless [.blockEntry, .key, .value, .blockEnd] .block fuel
      return item :: (← plainSequence fuel)
    else return []

def blockMapping : (fuel : Nat) → Read (List (Node × Node))
  | 0 => refuse
  | fuel + 1 => do
    if ← accept .key then
      let key ← nodeUnless [.key, .value, .blockEnd] .entry fuel
      let value ←
        if ← accept .value then nodeUnless [.key, .value, .blockEnd] .entry fuel
        else pure .absent
      return (key, value) :: (← blockMapping fuel)
    else if ← accept .blockEnd then return []
    else refuse

/-- Reads the value of an entry inside brackets that `close` ends. -/
def flowValue (close : Token) : (fuel : Nat) → Read Node
  | 0 => refuse
  | fuel + 1 => do
    if ← accept .value then nodeUnless [.flowEntry, close] .flow fuel else return .absent

/-- Reads the elements between square brackets. -/
def flowSequence (first : Bool) : (fuel : Nat) → Read (List Node)
  | 0 => refuse
  | fuel + 1 => do
    if ← accept .flowSequenceEnd then return []
    else if !first && !(← accept .flowEntry) then refuse
    else if ← accept .flowSequenceEnd then return []
    else if ← accept .key then
      let item ← flowPair fuel
      return item :: (← flowSequence false fuel)
    else
      let item ← node .flow fuel
      return item :: (← flowSequence false fuel)

/-- Reads an entry that stands alone between square brackets. A key that is left out takes the
token after it along. -/
def flowPair : (fuel : Nat) → Read Node
  | 0 => refuse
  | fuel + 1 => do
    let key ←
      if ← nextIn [.value, .flowEntry, .flowSequenceEnd] then
        skip
        pure Node.absent
      else node .flow fuel
    let value ← flowValue .flowSequenceEnd fuel
    return .mapping none [(key, value)]

/-- Reads the entries between braces. -/
def flowMapping (first : Bool) : (fuel : Nat) → Read (List (Node × Node))
  | 0 => refuse
  | fuel + 1 => do
    if ← accept .flowMappingEnd then return []
    else if !first && !(← accept .flowEntry) then refuse
    else if ← accept .flowMappingEnd then return []
    else if ← accept .key then
      let key ← nodeUnless [.value, .flowEntry, .flowMappingEnd] .flow fuel
      let value ← flowValue .flowMappingEnd fuel
      return (key, value) :: (← flowMapping false fuel)
    else
      let key ← node .flow fuel
      return (key, .absent) :: (← flowMapping false fuel)

end

/-! ## Documents -/

/-- The start of tags of the common schema. -/
def commonTags : String := "tag:yaml.org,2002:"

/-- The bytes of a text of ASCII characters. -/
def asciiTag (text : String) : TagText := text.toList.map (·.toNat.toUInt8)

/-- Reads directives, given whether a version was given, up to the mark of a document. -/
def directives : (fuel : Nat) → (versioned : Bool) → Read Unit
  | 0, _ => refuse
  | fuel + 1, versioned => do
    match ← peek with
    | .versionDirective major minor =>
      if versioned || major != 1 || (minor != 1 && minor != 2) then refuse
      else
        skip
        directives fuel true
    | .tagDirective handle start =>
      if ((← get).handles.lookup handle).isSome then refuse
      else
        skip
        modify fun r => { r with handles := r.handles ++ [(handle, start)] }
        directives fuel versioned
    | _ => return ()

/-- Adds the handles that every document has, unless it sets them itself. -/
def defaultHandles : Read Unit :=
  modify fun r =>
    { r with handles := r.handles ++ [("!", asciiTag "!"), ("!!", asciiTag commonTags)] }

def finish : (fuel : Nat) → Read Unit
  | 0 => refuse
  | fuel + 1 => do
    if ← accept .documentEnd then finish fuel
    else if (← peek) = .streamEnd then return ()
    else refuse

def atDirective : Read Bool := do
  match ← peek with
  | .versionDirective _ _ => return true
  | .tagDirective _ _ => return true
  | _ => return false

/-- Reads the root of the only document. -/
def document (fuel : Nat) : Read (Option Node) := do
  if (← peek) = .streamEnd then return none
  else if (← atDirective) || (← peek) = .documentStart then
    directives fuel false
    defaultHandles
    if ← accept .documentStart then
      let root ←
        if (← atDirective) || (← nextIn [.documentStart, .documentEnd, .streamEnd]) then
          pure Node.absent
        else node .block fuel
      finish fuel
      return some root
    else refuse
  else
    defaultHandles
    let root ← node .block fuel
    finish fuel
    return some root

end Read

/-- The only document that the tokens describe. -/
def Document.ofTokens? (tokens : List Token) : Option Document :=
  match Read.document (4 * tokens.length + 4) { tokens } with
  | none => none
  | some (root, r) =>
    let slots := r.starts.filterMap fun (slot, number) =>
      (r.nodes.lookup number).map fun node => (slot, node)
    some { root, slots }

def Document.parse? (text : String) : Option Document := do
  Document.ofTokens? (← tokenize? text.toList).toList

end TextStore.Yaml
