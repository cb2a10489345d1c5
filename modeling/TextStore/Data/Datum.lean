import TextStore.Memory

/-!
# Self-describing data

Scripts and settings are written down as data: numbers, texts, lists and keyed entries. This is
the common ground of the forms they can be read from.

* `Datum` : a value that says itself what kind it has;
* `Key` : what the key of an entry can mean to a record;
* `Datum.fields?` : a record's values by field name;
* `Datum.tagged?` : a value that names its own kind, as the kind and the rest.
-/

namespace TextStore

/-- What the key of an entry can mean to a record. -/
inductive Key where
  /-- The name of a field. -/
  | name (text : String)
  /-- The place of a field in the record's declaration. -/
  | index (n : Nat)
  /-- Nothing: no record has such a key. -/
  | other
  deriving DecidableEq, Repr

/-- A value that says itself what kind it has. -/
inductive Datum where
  | null
  | bool (b : Bool)
  | int (n : Int)
  /-- A number that is not written as an integer. -/
  | decimal (literal : String)
  | text (s : String)
  | list (items : List Datum)
  | map (entries : List (Key × Datum))
  deriving Inhabited, Repr

namespace Datum

def nat (n : Nat) : Datum := .int n

def record (fields : List (String × Datum)) : Datum :=
  .map (fields.map fun (name, value) => (.name name, value))

/-! ## Reading single values -/

def word? : Datum → Option Nat
  | int n => if 0 ≤ n ∧ n < wordRange then some n.toNat else none
  | _ => none

def text? : Datum → Option String
  | text s => some s
  | _ => none

def bool? : Datum → Option Bool
  | bool b => some b
  | _ => none

/-! ## Reading records -/

/-- The name of the field that `key` means in a record with these fields: `none` for a key that no
record has, and `some none` for a key that this record does not have. -/
def fieldOf? (names : List String) : Key → Option (Option String)
  | .name label => some (if names.contains label then some label else none)
  | .index n => some names[n]?
  | .other => none

/-- The entries that belong to fields of the record, by field name. There are none when a key
cannot belong to any record or a field is given twice. -/
def knownFields? (names : List String) : List (Key × Datum) → Option (List (String × Datum))
  | [] => some []
  | (key, value) :: rest =>
    match fieldOf? names key, knownFields? names rest with
    | some none, some fields => some fields
    | some (some name), some fields =>
      if (fields.lookup name).isSome then none else some ((name, value) :: fields)
    | _, _ => none

/-- The values of a record with the fields `names`, by field name. A list gives the fields in the
order of `names`; it may be shorter but not longer. -/
def fields? (names : List String) : Datum → Option (List (String × Datum))
  | map entries => knownFields? names entries
  | list items => if items.length ≤ names.length then some (names.zip items) else none
  | _ => none

/-! ## Reading tagged values -/

/-- The values that stand under `key`, and the other entries. -/
def splitKey (key : String) (entries : List (Key × Datum)) : List Datum × List (Key × Datum) :=
  ((entries.filter fun entry => entry.1 == .name key).map Prod.snd,
    entries.filter fun entry => entry.1 != .name key)

/-- A value that names its kind: among its entries under `key`, exactly once, or as the first
element of a list. The answer is the kind and what is left. -/
def tagged? (key : String) : Datum → Option (String × Datum)
  | map entries =>
    match splitKey key entries with
    | ([text kind], rest) => some (kind, .map rest)
    | _ => none
  | list (text kind :: rest) => some (kind, .list rest)
  | _ => none

end Datum

/-- A form of data that settings and scripts can be read from. -/
class Encoded (ν : Type) where
  /-- The value as a machine word. -/
  word? : ν → Option Nat
  /-- The values of a record with the given fields, by field name. -/
  fields? : List String → ν → Option (List (String × ν))
  /-- A list of values that name their kind under the given key. -/
  taggedList? : String → ν → Option (List (String × Datum))

instance : Encoded Datum where
  word? := Datum.word?
  fields? := Datum.fields?
  taggedList? key
    | .list items => items.mapM (Datum.tagged? key)
    | _ => none

end TextStore
