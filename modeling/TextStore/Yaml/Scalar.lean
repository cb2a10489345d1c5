import TextStore.Yaml.Cursor

/-!
# The text of scalars

How the lines of a scalar become one text: the break between two lines becomes a space, a blank
line in between becomes a line feed, and spaces around breaks are dropped.

* `Spacing`, `Spacing.fold` : the spacing between two runs of a scalar and what it becomes;
* `plain?` : a scalar without quotes;
* `quoted?` : a scalar in single or double quotes;
* `block?` : a scalar given by indented lines.

Each answers with the text and the place after it, or nothing when the text is not well-formed.
-/

namespace TextStore.Yaml

inductive ScalarStyle where
  | plain
  | singleQuoted
  | doubleQuoted
  | literal
  | folded
  deriving DecidableEq, Repr

/-! ## Spacing -/

/-- The spacing between two runs of a scalar. -/
structure Spacing where
  /-- The blanks before the first line break. -/
  blanks : List Char := []
  /-- The line breaks, in order. -/
  breaks : List Char := []

namespace Spacing

def isBroken (s : Spacing) : Bool := !s.breaks.isEmpty

/-- What several line breaks in a row become. -/
def foldBreaks : List Char → List Char
  | [] => []
  | ['\n'] => [' ']
  | '\n' :: more => more
  | breaks => breaks

/-- The same spacing, from its end on. -/
def reverse (s : Spacing) : Spacing := { blanks := s.blanks.reverse, breaks := s.breaks.reverse }

/-- What the spacing becomes in the text. -/
def fold (s : Spacing) : List Char :=
  if s.isBroken then foldBreaks s.breaks else s.blanks

end Spacing

/-- Reads the spacing from here on, after the spacing `s`, which is given and answered from its end
on. A tab that stands left of column `margin` after a line break is refused. -/
def spacingFrom? (margin : Nat) : (fuel : Nat) → Spacing → Cursor → Option (Spacing × Cursor)
  | 0, s, c => some (s, c)
  | fuel + 1, s, c =>
    match c.rest with
    | [] => some (s, c)
    | ch :: _ =>
      if isBlank ch then
        if s.isBroken then
          if ch == '\t' && decide (c.column < margin) then none
          else spacingFrom? margin fuel s (c.advance 1)
        else spacingFrom? margin fuel { s with blanks := ch :: s.blanks } (c.advance 1)
      else if isBreak ch then
        spacingFrom? margin fuel { s with breaks := ch :: s.breaks } c.skipBreak
      else some (s, c)

def spacing? (margin : Nat) (c : Cursor) : Option (Spacing × Cursor) :=
  (spacingFrom? margin c.left {} c).map fun (s, c) => (s.reverse, c)

/-! ## Plain scalars -/

/-- A plain scalar, the place after it, and whether the spacing before that place spans lines. -/
structure PlainScalar where
  text : List Char
  next : Cursor
  broken : Bool

/-- Whether a plain scalar ends before the character here. -/
def endsPlain (flow : Bool) (c : Cursor) (ch : Char) : Bool :=
  (ch == ':' && c.spacedAt 1) || (flow && isFlowMark ch)

/-- Whether a colon stands here that a flow collection does not allow. -/
def hasStrayColon (flow : Bool) (c : Cursor) (ch : Char) : Bool :=
  flow && ch == ':' && (c.peek? 1).any fun next => next == '?' || isFlowMark next

/-- Reads a plain scalar on, given its text so far, last character first, and the spacing since. -/
def plainFrom? (flow : Bool) (margin : Nat) :
    (fuel : Nat) → (text : List Char) → Spacing → Cursor → Option PlainScalar
  | 0, text, s, c => some ⟨text.reverse, c, s.isBroken⟩
  | fuel + 1, text, s, c =>
    match c.rest with
    | [] => some ⟨text.reverse, c, s.isBroken⟩
    | ch :: _ =>
      if isSpacing ch then
        match spacing? margin c with
        | none => none
        | some (s', c') =>
          if (!flow && decide (c'.column < margin)) || c'.atDocumentMark || c'.sees 0 '#' then
            some ⟨text.reverse, c', s'.isBroken⟩
          else plainFrom? flow margin fuel text s' c'
      else if hasStrayColon flow c ch then none
      else if endsPlain flow c ch then some ⟨text.reverse, c, s.isBroken⟩
      else plainFrom? flow margin fuel (ch :: (s.fold.reverse ++ text)) {} (c.advance 1)

def plain? (flow : Bool) (margin : Nat) (c : Cursor) : Option PlainScalar :=
  plainFrom? flow margin (c.left + 1) [] {} c

/-! ## Quoted scalars -/

/-- What an escape of one letter stands for. -/
def simpleEscape? (c : Char) : Option Char :=
  match c with
  | '0' => some '\x00'
  | 'a' => some '\x07'
  | 'b' => some '\x08'
  | 't' => some '\t'
  | '\t' => some '\t'
  | 'n' => some '\n'
  | 'v' => some '\x0b'
  | 'f' => some '\x0c'
  | 'r' => some '\r'
  | 'e' => some '\x1b'
  | ' ' => some ' '
  | '"' => some '"'
  | '/' => some '/'
  | '\\' => some '\\'
  | 'N' => some '\u0085'
  | '_' => some '\u00a0'
  | 'L' => some '\u2028'
  | 'P' => some '\u2029'
  | _ => none

/-- The number of hexadecimal digits an escape takes. -/
def escapeWidth? (c : Char) : Option Nat :=
  match c with
  | 'x' => some 2
  | 'u' => some 4
  | 'U' => some 8
  | _ => none

def hexValue? (c : Char) : Option Nat :=
  if '0' ≤ c && c ≤ '9' then some (c.toNat - 48)
  else if 'a' ≤ c && c ≤ 'f' then some (c.toNat - 87)
  else if 'A' ≤ c && c ≤ 'F' then some (c.toNat - 55)
  else none

def hexNumber? (digits : List Char) : Option Nat :=
  (digits.mapM hexValue?).map fun values => values.foldl (fun n d => n * 16 + d) 0

/-- The character with this code, unless it is a surrogate or there is none. -/
def codePoint? (n : Nat) : Option Char :=
  if (0xD800 ≤ n && n ≤ 0xDFFF) || 0x10FFFF < n then none else some (Char.ofNat n)

/-- Reads an escape, the backslash being here: its character and the place after it. -/
def escape? (c : Cursor) : Option (Char × Cursor) := do
  let letter ← c.peek? 1
  match simpleEscape? letter with
  | some ch => return (ch, c.advance 2)
  | none =>
    let width ← escapeWidth? letter
    let digits := (c.rest.drop 2).take width
    if digits.length = width then
      return (← codePoint? (← hexNumber? digits), c.advance (2 + width))
    else none

/-- Reads a quoted scalar on, given its text so far, last character first. -/
def quotedFrom? (double : Bool) :
    (fuel : Nat) → (text : List Char) → Cursor → Option (List Char × Cursor)
  | 0, _, _ => none
  | fuel + 1, text, c =>
    if c.atDocumentMark then none
    else
      match c.rest with
      | [] => none
      | ch :: _ =>
        if isSpacing ch then
          match spacing? 0 c with
          | none => none
          | some (s, c') => quotedFrom? double fuel (s.fold.reverse ++ text) c'
        else if !double && ch == '\'' then
          if c.sees 1 '\'' then quotedFrom? double fuel ('\'' :: text) (c.advance 2)
          else some (text.reverse, c.advance 1)
        else if double && ch == '"' then some (text.reverse, c.advance 1)
        else if double && ch == '\\' then
          if (c.peek? 1).any isBreak then
            let c' := (c.advance 1).skipBreak
            match spacing? 0 c' with
            | none => none
            | some (s, c'') => quotedFrom? double fuel (s.breaks.reverse ++ text) c''
          else
            match escape? c with
            | none => none
            | some (value, c') => quotedFrom? double fuel (value :: text) c'
        else quotedFrom? double fuel (ch :: text) (c.advance 1)

def quoted? (double : Bool) (c : Cursor) : Option (List Char × Cursor) :=
  quotedFrom? double (c.left + 1) [] (c.advance 1)

/-! ## Block scalars -/

/-- What happens to the line breaks at the end of a block scalar. -/
inductive Chomping where
  /-- All are dropped. -/
  | strip
  /-- One is kept. -/
  | clip
  /-- All are kept. -/
  | keep
  deriving DecidableEq

/-- The head of a block scalar. -/
structure BlockHead where
  chomping : Chomping := .clip
  /-- The indentation that is asked for, or zero. -/
  increment : Nat := 0

def chompingMark (c : Cursor) : Option Chomping :=
  if c.sees 0 '+' then some .keep else if c.sees 0 '-' then some .strip else none

/-- Reads an indentation digit; it is never zero. The first answer is nothing when a zero stands
here, and the second when no digit does. -/
def indentationDigit? (c : Cursor) : Option (Option Nat) :=
  match c.peek? 0 with
  | none => some none
  | some ch =>
    if ch == '0' then none
    else if isDigit ch then some (some (ch.toNat - 48))
    else some none

def blockHead? (c : Cursor) : Option (BlockHead × Cursor) := do
  let (head, c) ←
    match chompingMark c with
    | some chomping =>
      let c := c.advance 1
      match ← indentationDigit? c with
      | some increment => pure ({ chomping, increment : BlockHead }, c.advance 1)
      | none => pure ({ chomping : BlockHead }, c)
    | none =>
      match ← indentationDigit? c with
      | none => pure (({} : BlockHead), c)
      | some increment =>
        let c := c.advance 1
        match chompingMark c with
        | some chomping => pure ({ chomping, increment : BlockHead }, c.advance 1)
        | none => pure ({ increment : BlockHead }, c)
  let c := c.skipComment
  if c.atLineEnd then return (head, c.skipBreak) else none

/-- Empty lines of a block scalar: their breaks, the place after them, and the largest column
reached. -/
structure EmptyLines where
  breaks : List Char
  next : Cursor
  reach : Nat

/-- Reads empty lines on, given the breaks so far, last one first. Lines are indented by `indent`
columns, or by any number when that is zero; a tab where indentation could go on is refused. -/
def emptyLinesFrom? (indent : Nat) :
    (fuel : Nat) → (breaks : List Char) → (reach : Nat) → Cursor → Option EmptyLines
  | 0, breaks, reach, c => some ⟨breaks.reverse, c, reach⟩
  | fuel + 1, breaks, reach, c =>
    let spaces := (c.rest.takeWhile (· == ' ')).length
    let c := c.advance (if indent = 0 then spaces else min spaces (indent - c.column))
    let reach := max reach c.column
    if (indent = 0 || decide (c.column < indent)) && c.sees 0 '\t' then none
    else
      match c.peek? 0 with
      | some ch =>
        if isBreak ch then emptyLinesFrom? indent fuel (ch :: breaks) reach c.skipBreak
        else some ⟨breaks.reverse, c, reach⟩
      | none => some ⟨breaks.reverse, c, reach⟩

def emptyLines? (indent : Nat) (c : Cursor) : Option EmptyLines :=
  emptyLinesFrom? indent (c.left + 1) [] 0 c

/-- The part of a block scalar that has been read. -/
structure BlockText where
  /-- The text up to the last line, last character first. -/
  text : List Char := []
  /-- The break after the last line. -/
  lineBreak : List Char := []
  /-- The breaks of the empty lines after that. -/
  breaks : List Char := []
  /-- Whether the last line began with a blank. -/
  blankLed : Bool := false

/-- Adds a line that starts with a blank or not, and the break after it. In a folded scalar the
break before it becomes a space, unless a line next to it starts with a blank. -/
def BlockText.addLine (b : BlockText) (folded : Bool) (line lineBreak : List Char) : BlockText :=
  let blankLed := line.head?.any isBlank
  let joint :=
    if folded && b.lineBreak == ['\n'] && !b.blankLed && !blankLed then
      if b.breaks.isEmpty then [' '] else []
    else b.lineBreak
  { text := line.reverse ++ (b.breaks.reverse ++ (joint.reverse ++ b.text)), lineBreak
    breaks := [], blankLed }

/-- Reads the lines of a block scalar that is indented by `indent` columns. -/
def blockFrom? (folded : Bool) (indent : Nat) :
    (fuel : Nat) → BlockText → Cursor → Option (BlockText × Cursor)
  | 0, b, c => some (b, c)
  | fuel + 1, b, c =>
    if c.column = indent && !c.rest.isEmpty then
      let (line, c) := c.span fun ch => !isBreak ch
      let b := b.addLine folded line (c.rest.take 1)
      match emptyLines? indent c.skipBreak with
      | none => none
      | some empty => blockFrom? folded indent fuel { b with breaks := empty.breaks } empty.next
    else some (b, c)

/-- Reads a block scalar whose mark is here, inside a block whose content starts at column
`margin`. -/
def block? (folded : Bool) (margin : Nat) (c : Cursor) : Option (List Char × Cursor) := do
  let (head, c) ← blockHead? (c.advance 1)
  let asked := if head.increment = 0 then 0 else margin - 1 + head.increment
  let empty ← emptyLines? asked c
  let indent := if asked = 0 then max (max empty.reach margin) 1 else asked
  let (b, c) ← blockFrom? folded indent c.left { breaks := empty.breaks } empty.next
  let tail :=
    match head.chomping with
    | .strip => []
    | .clip => b.lineBreak
    | .keep => b.lineBreak ++ b.breaks
  return (b.text.reverse ++ tail, c)

end TextStore.Yaml
