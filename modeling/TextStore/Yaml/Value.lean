import TextStore.Data.Settings
import TextStore.Data.Script
import TextStore.Text.Utf8
import TextStore.Yaml.Node
import TextStore.Yaml.Number

/-!
# Data in YAML documents

* `Scalar.datum?` : what a scalar says, by its tag, its style and its spelling;
* `Datum.ofNode?` : a node as data;
* `Value` : a node with what it takes to follow its aliases, as a form that settings and scripts
  can be read from;
* `Script.parse?`, `Settings.parse?` : read YAML texts.

Where a record or a list is expected, a node that is left out stands for an empty one. Where a word
is expected, the spelling alone decides and the tag does not count.
-/

namespace TextStore.Yaml

/-! ## Scalars -/

/-- A tag of the common schema. -/
def commonTag (name : String) : TagText := Read.asciiTag (Read.commonTags ++ name)

/-- Whether a tag belongs to the document alone. No datum has such a tag. -/
def isLocalTag (tag : Option TagText) : Bool :=
  match tag with
  | some (0x21 :: rest) => rest.isEmpty || (Utf8.decode? rest).isSome
  | _ => false

/-- The spellings of the empty value. -/
def isNull (text : String) : Bool := ["~", "null", "Null", "NULL"].contains text

/-- The spellings of truth values. -/
def truth? (text : String) : Option Bool :=
  if ["true", "True", "TRUE"].contains text then some true
  else if ["false", "False", "FALSE"].contains text then some false
  else none

/-- Whether an integer is a signed or an unsigned number of `width` bits. -/
def inWidth (width : Nat) (n : Int) : Bool :=
  match n with
  | .ofNat n => decide (n < Nat.pow 2 width)
  | .negSucc n => decide (n < Nat.pow 2 (width - 1))

/-- What a text is as an integer: a datum, an integer too wide for one, or no integer. Integers
of more than 128 bits are none. -/
inductive IntegerReading where
  | datum (n : Int)
  | tooWide
  | none

def readInteger (text : String) : IntegerReading :=
  match integer? text.toList with
  | .none => .none
  | .some n =>
    if inWidth 64 n then .datum n
    else if inWidth 128 n then .tooWide
    else .none

/-- What a plain scalar without a tag says. -/
def plainDatum? (text : String) : Option Datum :=
  if text.isEmpty || isNull text then some .null
  else
    match truth? text with
    | some b => some (.bool b)
    | none =>
      match readInteger text with
      | .datum n => some (.int n)
      | .tooWide => none
      | .none =>
        if !leadsWithZero text.toList && isNumber text.toList then some (.decimal text)
        else some (.text text)

/-- What a scalar says. A tag of the common schema for a kind of value asks for a spelling of that
kind; other tags make it a text, and so do quotes. -/
def Scalar.datum? (s : Scalar) : Option Datum :=
  match s.tag with
  | none => if s.style = .plain then plainDatum? s.text else some (.text s.text)
  | some tag =>
    if isLocalTag (some tag) then none
    else if tag == commonTag "bool" then (truth? s.text).map .bool
    else if tag == commonTag "int" then
      match readInteger s.text with
      | .datum n => some (.int n)
      | _ => none
    else if tag == commonTag "float" then
      if isNumber s.text.toList then some (.decimal s.text) else none
    else if tag == commonTag "null" then if isNull s.text then some .null else none
    else if tag.head? == some 0x21 && s.style = .plain then plainDatum? s.text
    else some (.text s.text)

/-- What a scalar says as the key of an entry. Only an integer without a minus sign is a place. -/
def Scalar.key? (s : Scalar) : Option Key :=
  s.datum?.map fun d =>
    match d with
    | .text text => .name text
    | .int n => if s.text.startsWith "-" then .other else .index n.toNat
    | _ => .other

/-! ## Nodes -/

/-- How many lists and mappings may stand inside each other. -/
def maxDepth : Nat := 128

/-- How often aliases may be followed, for each part of the document. -/
def maxAliasUse : Nat := 100

mutual

/-- The number of parts of a node: one for a scalar or alias, and two for a list or mapping besides
those inside. -/
def Node.parts : Node → Nat
  | .scalar _ => 1
  | .alias _ => 1
  | .sequence _ items => 2 + partsOfItems items
  | .mapping _ entries => 2 + partsOfEntries entries

def partsOfItems : List Node → Nat
  | [] => 0
  | node :: rest => node.parts + partsOfItems rest

def partsOfEntries : List (Node × Node) → Nat
  | [] => 0
  | (key, value) :: rest => key.parts + value.parts + partsOfEntries rest

end

/-- A conversion that may fail and counts how often an alias may still be followed. -/
abbrev Convert := StateT Nat Option

namespace Convert

def refuse {α : Type} : Convert α := fun _ => none

/-- Goes on with an answer that may be missing. -/
def lift {α : Type} (answer : Option α) : Convert α := fun budget =>
  answer.map fun a => (a, budget)

/-- The node itself, or the node that the alias stands for. -/
def follow (slots : List (Nat × Node)) (node : Node) : Convert Node := fun budget =>
  match node with
  | .alias slot =>
    match budget with
    | 0 => none
    | left + 1 => (slots.lookup slot).map fun target => (target, left)
  | node => some (node, budget)

def rawText (slots : List (Nat × Node)) (node : Node) : Convert String := do
  match ← follow slots node with
  | .scalar s => return s.text
  | _ => refuse

mutual

/-- A node as data, with at most `depth` lists and mappings inside each other. -/
def datum (slots : List (Nat × Node)) : (depth : Nat) → Node → Convert Datum
  | depth, node => do
    match ← follow slots node with
    | .scalar s => lift s.datum?
    | .sequence tag items =>
      if isLocalTag tag then refuse else return .list (← inner slots depth items)
    | .mapping tag entries =>
      if isLocalTag tag then refuse else return .map (← innerEntries slots depth entries)
    | .alias _ => refuse
termination_by depth => 2 * depth + 1

def inner (slots : List (Nat × Node)) : (depth : Nat) → List Node → Convert (List Datum)
  | 0, _ => refuse
  | depth + 1, items => items.mapM fun item => datum slots depth item
termination_by depth => 2 * depth

/-- Entries one level further in, as data. -/
def innerEntries (slots : List (Nat × Node)) :
    (depth : Nat) → List (Node × Node) → Convert (List (Key × Datum))
  | 0, _ => refuse
  | depth + 1, entries =>
    entries.mapM fun (key, value) => do
      let key ←
        match ← follow slots key with
        | .scalar s => lift s.key?
        | key => do
          let _ ← datum slots depth key
          pure Key.other
      return (key, ← datum slots depth value)
termination_by depth => 2 * depth

end

/-- An element of a list of values that name their kind under `key`: its kind, as the text of a
scalar of any style, and what is left. -/
def tagged (slots : List (Nat × Node)) (key : String) (depth : Nat) (node : Node) :
    Convert (String × Datum) := do
  match depth, ← follow slots node with
  | depth + 1, .sequence tag (kind :: items) =>
    if isLocalTag tag then refuse
    else
      let kind ← rawText slots kind
      return (kind, .list (← items.mapM (datum slots depth)))
  | depth + 1, .mapping tag entries =>
    if isLocalTag tag then refuse
    else
      let parts ← entries.mapM fun (k, v) => do
        match ← follow slots k with
        | .scalar s =>
          let k ← lift s.key?
          if k = .name key then return Sum.inl (← rawText slots v)
          else return Sum.inr (k, ← datum slots depth v)
        | k =>
          let _ ← datum slots depth k
          return Sum.inr (Key.other, ← datum slots depth v)
      match parts.filterMap Sum.getLeft? with
      | [kind] => return (kind, .map (parts.filterMap Sum.getRight?))
      | _ => refuse
  | _, _ => refuse

end Convert

/-! ## Values -/

/-- A node of a document, with what it takes to read it. -/
structure Value where
  node : Node
  slots : List (Nat × Node)
  /-- How many lists and mappings may stand inside each other from here on. -/
  depth : Nat
  /-- How often aliases may be followed. -/
  budget : Nat

namespace Value

def ofDocument (d : Document) : Value :=
  let root := d.root.getD .absent
  { node := root, slots := d.slots, depth := maxDepth, budget := maxAliasUse * root.parts }

/-- The node itself, or the node that the alias stands for. -/
def target? (v : Value) : Option Node :=
  ((Convert.follow v.slots v.node).run v.budget).map Prod.fst

/-- Whether a node is left out. -/
def isAbsent (s : Scalar) : Bool := s.text.isEmpty && s.style = .plain

/-- The value as a machine word: a plain scalar, or a literal one that is tagged as an integer. -/
def word? (v : Value) : Option Nat := do
  match ← v.target? with
  | .scalar s =>
    if s.style = .plain || (s.style = .literal && s.tag == some (commonTag "int")) then
      let n ← unsigned? s.text.toList
      if n < wordRange then return n else none
    else none
  | _ => none

/-- The named nodes that belong to fields of a record, as values like `v`. -/
def knownFields? (v : Value) (names : List String) :
    List (String × Node) → Option (List (String × Value))
  | [] => some []
  | (name, node) :: rest => do
    let fields ← v.knownFields? names rest
    if !names.contains name then return fields
    else if (fields.lookup name).isSome then none
    else return (name, { v with node }) :: fields

/-- The values of a record by field name. Aliases that are followed for keys count too. -/
def fields? (names : List String) (v : Value) : Option (List (String × Value)) := do
  let named : Convert (List (String × Node)) := do
    match ← Convert.follow v.slots v.node with
    | .mapping _ entries =>
      entries.mapM fun (key, value) => do return (← Convert.rawText v.slots key, value)
    | .scalar s => if isAbsent s then return [] else Convert.refuse
    | _ => Convert.refuse
  let (entries, budget) ← named.run v.budget
  { v with depth := v.depth - 1, budget }.knownFields? names entries

/-- A list of values that name their kind under `key`. -/
def taggedList? (key : String) (v : Value) : Option (List (String × Datum)) :=
  let convert : Convert (List (String × Datum)) := do
    match ← Convert.follow v.slots v.node with
    | .sequence _ items => items.mapM (Convert.tagged v.slots key (v.depth - 1))
    | .scalar s => if isAbsent s then return [] else Convert.refuse
    | _ => Convert.refuse
  (convert.run v.budget).map Prod.fst

end Value

instance : Encoded Value where
  word? := Value.word?
  fields? := Value.fields?
  taggedList? := Value.taggedList?

def Value.parse? (text : String) : Option Value :=
  (Document.parse? text).map Value.ofDocument

end TextStore.Yaml

namespace TextStore

def Script.parse? (text : String) : Option Script := do
  Script.decode? (← Yaml.Value.parse? text)

def Settings.parse? (text : String) : Option Settings := do
  Settings.decode? (← Yaml.Value.parse? text)

end TextStore
