/-!
# Characters and places in a YAML text

* `isBlank`, `isBreak`, `isWordChar`, `isFlowMark` : the character classes the lexer asks about;
* `isAdmissible` : the characters a YAML text may hold;
* `normalizeBreaks` : the text with one line feed for each carriage return, line feed, pair of the
  two, or next-line character;
* `Cursor` : the rest of a text, with the place it starts at.
-/

namespace TextStore.Yaml

def isBlank (c : Char) : Bool := c == ' ' || c == '\t'

/-- A line break, in a text whose breaks are normalized. -/
def isBreak (c : Char) : Bool := c == '\n' || c == '\u2028' || c == '\u2029'

def isSpacing (c : Char) : Bool := isBlank c || isBreak c

/-- A character of anchor names, directive names and tag handles. -/
def isWordChar (c : Char) : Bool :=
  ('0' ≤ c && c ≤ '9') || ('A' ≤ c && c ≤ 'Z') || ('a' ≤ c && c ≤ 'z') || c == '_' || c == '-'

def isDigit (c : Char) : Bool := '0' ≤ c && c ≤ '9'

/-- A mark that ends a plain scalar inside a flow collection. -/
def isFlowMark (c : Char) : Bool :=
  c == ',' || c == '[' || c == ']' || c == '\x7b' || c == '\x7d'

/-- Whether a YAML text may hold the character as it is. -/
def isAdmissible (c : Char) : Bool :=
  let n := c.toNat
  n == 0x09 || n == 0x0A || n == 0x0D || (0x20 ≤ n && n ≤ 0x7E) || n == 0x85 ||
    (0xA0 ≤ n && n ≤ 0xD7FF) || (0xE000 ≤ n && n ≤ 0xFFFD) || 0x10000 ≤ n

/-- Writes every line break but the separators U+2028 and U+2029 as a line feed. -/
def normalizeBreaks : List Char → List Char
  | [] => []
  | '\r' :: '\n' :: rest => '\n' :: normalizeBreaks rest
  | c :: rest => (if c == '\r' || c == '\u0085' then '\n' else c) :: normalizeBreaks rest

def byteOrderMark : Char := '\uFEFF'

/-- What is left of a text, and where that starts. -/
structure Cursor where
  rest : List Char
  /-- Bytes from this place on, in UTF-8. -/
  left : Nat
  line : Nat := 0
  /-- Characters before this place on its line. -/
  column : Nat := 0

namespace Cursor

def start (text : List Char) : Cursor :=
  { rest := text, left := text.foldl (fun n ch => n + ch.utf8Size) 0 }

/-- Goes on by `n` characters, none of which is a line break. -/
def advance (c : Cursor) : (n : Nat) → Cursor
  | 0 => c
  | n + 1 =>
    match c.rest with
    | [] => c
    | ch :: rest =>
      { c with rest, left := c.left - ch.utf8Size, column := c.column + 1 }.advance n

/-- Goes on past a line break, if there is one here. -/
def skipBreak (c : Cursor) : Cursor :=
  match c.rest with
  | ch :: rest =>
    if isBreak ch then
      { rest, left := c.left - ch.utf8Size, line := c.line + 1, column := 0 }
    else c
  | [] => c

/-- The longest run of characters from here on that satisfy `p`, none of which is a line break,
and the place after it. -/
def span (c : Cursor) (p : Char → Bool) : List Char × Cursor :=
  let run := c.rest.takeWhile p
  (run, c.advance run.length)

/-- Goes on past the characters that satisfy `p`, none of which is a line break. -/
def skip (c : Cursor) (p : Char → Bool) : Cursor := (c.span p).2

def peek? (c : Cursor) (n : Nat) : Option Char := c.rest[n]?

def sees (c : Cursor) (n : Nat) (ch : Char) : Bool := c.peek? n == some ch

/-- Whether spacing or the end of the text is `n` places from here. -/
def spacedAt (c : Cursor) (n : Nat) : Bool := (c.peek? n).all isSpacing

/-- Whether the line or the text ends here. -/
def atLineEnd (c : Cursor) : Bool := (c.peek? 0).all isBreak

/-- Whether three times the character `ch` stands alone at the start of this line. -/
def marksDocument (c : Cursor) (ch : Char) : Bool :=
  c.column == 0 && c.sees 0 ch && c.sees 1 ch && c.sees 2 ch && c.spacedAt 3

def atDocumentMark (c : Cursor) : Bool := c.marksDocument '-' || c.marksDocument '.'

def skipComment (c : Cursor) : Cursor :=
  let c := c.skip isBlank
  if c.sees 0 '#' then c.skip fun ch => !isBreak ch else c

end Cursor

end TextStore.Yaml
