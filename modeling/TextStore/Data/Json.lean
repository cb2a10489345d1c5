import TextStore.Data.Datum
import TextStore.Text.Quoted

/-!
# Data as JSON text

* `Json.quote` : a text between quotes, with the escapes JSON asks for;
* `Datum.toJson` : a value spread over indented lines, two columns a level; empty lists and records
  stay on one line.
-/

namespace TextStore

namespace Json

def escapeChar (c : Char) : String :=
  match c with
  | '"' => "\\\""
  | '\\' => "\\\\"
  | '\x08' => "\\b"
  | '\x0c' => "\\f"
  | '\n' => "\\n"
  | '\r' => "\\r"
  | '\t' => "\\t"
  | c =>
    if c.toNat < 0x20 then
      let digits := Text.hexDigits c.toNat
      "\\u" ++ String.ofList (List.replicate (4 - digits.length) '0') ++ digits
    else c.toString

def quote (text : String) : String :=
  "\"" ++ String.join (text.toList.map escapeChar) ++ "\""

/-- The start of a line at this level. -/
def indent (level : Nat) : String := String.ofList (List.replicate (2 * level) ' ')

/-- Parts on lines of their own between two brackets. -/
def enclose (opening closing : String) (level : Nat) (parts : List String) : String :=
  if parts.isEmpty then opening ++ closing
  else
    opening ++ "\n" ++
      String.intercalate ",\n" (parts.map fun part => indent (level + 1) ++ part) ++
      "\n" ++ indent level ++ closing

def keyText : Key → String
  | .name text => text
  | .index n => toString n
  | .other => ""

end Json

namespace Datum

mutual

/-- A value as JSON text, on lines at the given level. -/
def toJsonAt (level : Nat) : Datum → String
  | null => "null"
  | bool b => if b then "true" else "false"
  | int n => toString n
  | decimal literal => literal
  | text s => Json.quote s
  | list items => Json.enclose "[" "]" level (itemsToJson (level + 1) items)
  | map entries => Json.enclose "\x7b" "\x7d" level (entriesToJson (level + 1) entries)

def itemsToJson (level : Nat) : List Datum → List String
  | [] => []
  | item :: rest => toJsonAt level item :: itemsToJson level rest

def entriesToJson (level : Nat) : List (Key × Datum) → List String
  | [] => []
  | (key, value) :: rest =>
    (Json.quote (Json.keyText key) ++ ": " ++ toJsonAt level value) :: entriesToJson level rest

end

def toJson (value : Datum) : String := value.toJsonAt 0

end Datum

end TextStore
