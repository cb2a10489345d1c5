import TextStore.Text.Combining
import TextStore.Text.Printable

/-!
# Quoted text

How a text is shown inside a message: between double quotes, with escapes for what could not be
read back from the screen.

* `hexDigits` : a number in lower-case hexadecimal;
* `escapeChar`, `quote` : the shown form of a character and of a text.
-/

namespace TextStore.Text

/-- A number in lower-case hexadecimal, without leading zeros. -/
def hexDigits (n : Nat) : String := String.ofList (Nat.toDigits 16 n)

/-- The shown form of a character inside quotes. -/
def escapeChar (c : Char) : String :=
  match c with
  | '\x00' => "\\0"
  | '\t' => "\\t"
  | '\r' => "\\r"
  | '\n' => "\\n"
  | '\\' => "\\\\"
  | '"' => "\\\""
  | c =>
    if isCombining c || isUnprintable c then "\\u\x7b" ++ hexDigits c.toNat ++ "\x7d"
    else c.toString

def quote (text : String) : String :=
  "\"" ++ String.join (text.toList.map escapeChar) ++ "\""

end TextStore.Text
