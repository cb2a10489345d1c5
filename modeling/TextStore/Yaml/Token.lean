import TextStore.Yaml.Scalar

/-!
# YAML tokens

* `Token` : the marks, names and scalars a YAML text is made of;
* `Lexer` : the tokens so far and what the following ones depend on;
* `tokenize?` : the tokens of a text.

Two things make the order of tokens differ from the order of characters. A change of indentation
opens or closes blocks, and a colon turns the node before it into a key, so that the token for the
key has to be put in front of that node. For this the lexer remembers, for every level of brackets,
where a key could have begun.
-/

namespace TextStore.Yaml

/-- The bytes of a tag or of the start of tags. -/
abbrev TagText := List UInt8

inductive Token where
  | streamEnd
  | versionDirective (major minor : Nat)
  | tagDirective (handle : String) (start : TagText)
  | documentStart
  | documentEnd
  | blockSequenceStart
  | blockMappingStart
  | blockEnd
  | flowSequenceStart
  | flowSequenceEnd
  | flowMappingStart
  | flowMappingEnd
  | blockEntry
  | flowEntry
  | key
  | value
  | alias (name : String)
  | anchor (name : String)
  | tag (handle : String) (suffix : TagText)
  | scalar (text : String) (style : ScalarStyle)
  deriving DecidableEq, Repr

/-- A place where a key may have begun. -/
structure KeyPlace where
  /-- The number of the token the key would begin with. -/
  number : Nat
  /-- Bytes from this place on. -/
  left : Nat
  line : Nat
  column : Nat
  /-- Whether the place can be nothing but a key. -/
  required : Bool

structure Lexer where
  cursor : Cursor
  tokens : Array Token := #[]
  /-- The column at which the content of the innermost block has to start at least: one more than
  the indentation of the block, zero outside of all. -/
  margin : Nat := 0
  /-- The margins of the blocks around it. -/
  outerMargins : List Nat := []
  /-- Where a key may have begun, inside the innermost brackets. -/
  keyPlace : Option KeyPlace := none
  /-- The same for the brackets around them. -/
  outerKeyPlaces : List (Option KeyPlace) := []
  /-- Whether a key may begin here. -/
  keyAllowed : Bool := true

namespace Lexer

def inFlow (l : Lexer) : Bool := !l.outerKeyPlaces.isEmpty

def emit (l : Lexer) (t : Token) : Lexer := { l with tokens := l.tokens.push t }

/-- Puts a token in front of token number `n`. -/
def insertAt (l : Lexer) (n : Nat) (t : Token) : Lexer :=
  { l with tokens := l.tokens.insertIdxIfInBounds n t }

/-- Adds a token that takes `width` characters. -/
def emitMark (l : Lexer) (t : Token) (width : Nat) : Lexer :=
  { l with cursor := l.cursor.advance width }.emit t

def allowKey (l : Lexer) (allowed : Bool) : Lexer := { l with keyAllowed := allowed }

/-! ## Indentation -/

/-- Leaves blocks until the margin is at most `margin`: the margin then, those around it, and how
many blocks were left, beside `count` earlier ones. -/
def innerBlocks (margin : Nat) : List Nat → (current count : Nat) → Nat × List Nat × Nat
  | [], current, count => (current, [], count)
  | outer :: rest, current, count =>
    if margin < current then innerBlocks margin rest outer (count + 1)
    else (current, outer :: rest, count)

/-- Closes blocks until the margin is at most `margin`. -/
def closeBlocks (l : Lexer) (margin : Nat) : Lexer :=
  if l.inFlow then l
  else
    match innerBlocks margin l.outerMargins l.margin 0 with
    | (current, outer, count) =>
      { l with
        margin := current
        outerMargins := outer
        tokens := l.tokens ++ Array.replicate count Token.blockEnd }

/-- Opens a block at `column`, if that is further right than the innermost one, with its token in
front of token number `n`. -/
def openBlock (l : Lexer) (column n : Nat) (t : Token) : Lexer :=
  if l.inFlow || decide (column < l.margin) then l
  else { l with margin := column + 1, outerMargins := l.margin :: l.outerMargins }.insertAt n t

def openBlockHere (l : Lexer) (t : Token) : Lexer :=
  l.openBlock l.cursor.column l.tokens.size t

/-! ## Places of keys -/

/-- Forgets the place of a key; one that is required cannot be forgotten. -/
def forgetKey? (l : Lexer) : Option Lexer :=
  if l.keyPlace.any KeyPlace.required then none else some { l with keyPlace := none }

/-- Remembers that a key may begin here. -/
def rememberKey? (l : Lexer) : Option Lexer :=
  if l.keyAllowed then do
    let forgotten ← l.forgetKey?
    let place : KeyPlace :=
      { number := l.tokens.size, left := l.cursor.left, line := l.cursor.line
        column := l.cursor.column
        required := !l.inFlow && decide (l.cursor.column + 1 = l.margin) }
    return { forgotten with keyPlace := some place }
  else some l

/-- The most bytes between the start of a key and its colon. -/
def maxKeyLength : Nat := 1024

/-- Whether a key that began at `place` can no longer end here. -/
def isStale (l : Lexer) (place : KeyPlace) : Bool :=
  decide (place.line < l.cursor.line) || decide (l.cursor.left + maxKeyLength < place.left)

/-- Forgets a place that is stale. -/
def refresh? (l : Lexer) (place : Option KeyPlace) : Option (Option KeyPlace) :=
  match place with
  | none => some none
  | some place =>
    if l.isStale place then if place.required then none else some none else some (some place)

/-- Forgets the places where a key can no longer have begun. -/
def forgetStale? (l : Lexer) : Option Lexer :=
  if (l.keyPlace :: l.outerKeyPlaces).any fun place => place.any l.isStale then do
    let outer ← l.outerKeyPlaces.mapM l.refresh?
    let inner ← l.refresh? l.keyPlace
    return { l with keyPlace := inner, outerKeyPlaces := outer }
  else some l

/-! ## Between tokens -/

/-- Goes on past a byte order mark at the start of a line. -/
def skipByteOrderMark (c : Cursor) : Cursor :=
  if c.column = 0 && c.sees 0 byteOrderMark then c.advance 1 else c

/-- Goes on past spaces, comments, line breaks and byte order marks at the start of lines. Tabs
count as spaces where no key may begin. A line break outside of brackets allows a key. -/
def skipSpacing (l : Lexer) : (fuel : Nat) → Lexer
  | 0 => l
  | fuel + 1 =>
    let blank : Char → Bool := fun ch => ch == ' ' || ((l.inFlow || !l.keyAllowed) && ch == '\t')
    let c := (skipByteOrderMark l.cursor).skip blank
    let c := if c.sees 0 '#' then c.skip fun ch => !isBreak ch else c
    if (c.peek? 0).any isBreak then
      { l with cursor := c.skipBreak, keyAllowed := l.keyAllowed || !l.inFlow }.skipSpacing fuel
    else { l with cursor := c }

/-! ## Directives -/

/-- Reads a number of at most nine digits. -/
def versionNumber? (c : Cursor) : Option (Nat × Cursor) :=
  match c.span isDigit with
  | (digits, next) =>
    if digits.isEmpty || 9 < digits.length then none
    else some (digits.foldl (fun n d => n * 10 + (d.toNat - 48)) 0, next)

def versionDirective? (c : Cursor) : Option (Token × Cursor) := do
  let (major, c) ← versionNumber? (c.skip isBlank)
  if c.sees 0 '.' then
    let (minor, c) ← versionNumber? (c.advance 1)
    return (.versionDirective major minor, c)
  else none

/-- Reads a tag handle: a word between exclamation marks, or an exclamation mark with or without a
word after it. -/
def tagHandle? (c : Cursor) : Option (List Char × Cursor) :=
  if c.sees 0 '!' then
    match (c.advance 1).span isWordChar with
    | (word, next) =>
      if next.sees 0 '!' then some ('!' :: word ++ ['!'], next.advance 1)
      else some ('!' :: word, next)
  else none

/-- A character of a tag; commas and brackets are taken only between angle brackets and in
directives. -/
def isTagChar (verbatim : Bool) (c : Char) : Bool :=
  isWordChar c || ";/?:@&=+$.%!~*'()".toList.contains c || (verbatim && ",[]".toList.contains c)

/-- The number of bytes of the character that starts with this byte. -/
def leadWidth? (byte : Nat) : Option Nat :=
  if byte < 0x80 then some 1
  else if byte / 32 = 6 then some 2
  else if byte / 16 = 14 then some 3
  else if byte / 8 = 30 then some 4
  else none

/-- Reads the byte of a percent escape. -/
def escapedByte? : List Char → Option (Nat × List Char)
  | '%' :: a :: b :: rest => do return ((← hexValue? a) * 16 + (← hexValue? b), rest)
  | _ => none

/-- Reads the `count` escapes that continue a character. -/
def escapedRest? : (count : Nat) → List Char → Option (TagText × List Char)
  | 0, cs => some ([], cs)
  | count + 1, cs => do
    let (byte, cs) ← escapedByte? cs
    if byte / 64 = 2 then
      let (bytes, cs) ← escapedRest? count cs
      return (byte.toUInt8 :: bytes, cs)
    else none

/-- Reads a character of a tag that is written with percent escapes. -/
def escapedChar? (cs : List Char) : Option (TagText × List Char) := do
  let (byte, cs) ← escapedByte? cs
  let width ← leadWidth? byte
  let (bytes, cs) ← escapedRest? (width - 1) cs
  return (byte.toUInt8 :: bytes, cs)

/-- Reads the characters of a tag: their bytes and how many characters they take. -/
def tagChars? (verbatim : Bool) : (fuel : Nat) → List Char → Option (TagText × Nat)
  | 0, _ => some ([], 0)
  | _ + 1, [] => some ([], 0)
  | fuel + 1, c :: rest =>
    if c == '%' then do
      let (bytes, rest) ← escapedChar? (c :: rest)
      let (more, width) ← tagChars? verbatim fuel rest
      return (bytes ++ more, 3 * bytes.length + width)
    else if isTagChar verbatim c then do
      let (more, width) ← tagChars? verbatim fuel rest
      return (c.toNat.toUInt8 :: more, width + 1)
    else some ([], 0)

/-- Reads a tag that starts with `start`; it must not be empty unless a start is given. A zero byte
ends the tag, whatever is written after it. -/
def tagUri? (verbatim : Bool) (start : Option (List Char)) (c : Cursor) :
    Option (TagText × Cursor) := do
  let (bytes, width) ← tagChars? verbatim c.left c.rest
  if start.isNone && width = 0 then none
  else
    let tag := (start.getD []).map (·.toNat.toUInt8) ++ bytes
    return (tag.takeWhile (· != 0), c.advance width)

def tagDirective? (c : Cursor) : Option (Token × Cursor) := do
  let (handle, c) ← tagHandle? (c.skip isBlank)
  if handle != ['!'] && (handle.length < 2 || handle.getLast? != some '!') then none
  else if !(c.peek? 0).any isBlank then none
  else
    let (start, c) ← tagUri? true none (c.skip isBlank)
    if c.spacedAt 0 then return (.tagDirective (String.ofList handle) start, c) else none

def directive? (c : Cursor) : Option (Token × Cursor) := do
  let (name, c) := (c.advance 1).span isWordChar
  if name.isEmpty || !c.spacedAt 0 then none
  else
    let (t, c) ←
      if name == "YAML".toList then versionDirective? c
      else if name == "TAG".toList then tagDirective? c
      else none
    let c := c.skipComment
    if c.atLineEnd then return (t, c.skipBreak) else none

/-! ## Single tokens -/

def anchorName? (c : Cursor) : Option (String × Cursor) :=
  match (c.advance 1).span isWordChar with
  | (name, next) =>
    if name.isEmpty then none
    else if next.spacedAt 0 || (next.peek? 0).any "?:,]\x7d%@".toList.contains ||
        next.sees 0 '\x60' then
      some (String.ofList name, next)
    else none

def tag? (inFlow : Bool) (c : Cursor) : Option (Token × Cursor) := do
  let (t, c) ←
    if c.sees 1 '<' then do
      let (suffix, c) ← tagUri? true none (c.advance 2)
      if c.sees 0 '>' then pure (Token.tag "" suffix, c.advance 1) else none
    else do
      let (handle, c) ← tagHandle? c
      if 2 ≤ handle.length && handle.getLast? == some '!' then
        let (suffix, c) ← tagUri? false none c
        pure (Token.tag (String.ofList handle) suffix, c)
      else
        let (suffix, c) ← tagUri? false (some handle.tail) c
        if suffix.isEmpty then pure (Token.tag "" [0x21], c)
        else pure (Token.tag "!" suffix, c)
  if c.spacedAt 0 || (inFlow && c.sees 0 ',') then return (t, c) else none

/-- Adds a token whose reading may fail, where a key may begin. -/
def emitNode? (l : Lexer) (read : Cursor → Option (Token × Cursor)) : Option Lexer := do
  let l ← l.rememberKey?
  let (t, c) ← read l.cursor
  return { (l.emit t).allowKey false with cursor := c }

def emitPlain? (l : Lexer) : Option Lexer := do
  let l ← l.rememberKey?
  let p ← plain? l.inFlow l.margin l.cursor
  return { l.emit (.scalar (String.ofList p.text) .plain) with
    cursor := p.next
    keyAllowed := p.broken }

def emitQuoted? (l : Lexer) (double : Bool) : Option Lexer :=
  l.emitNode? fun c => do
    let (text, c) ← quoted? double c
    return (.scalar (String.ofList text) (if double then .doubleQuoted else .singleQuoted), c)

def emitBlock? (l : Lexer) (folded : Bool) : Option Lexer := do
  let l ← l.forgetKey?
  let (text, c) ← block? folded l.margin l.cursor
  let t := Token.scalar (String.ofList text) (if folded then .folded else .literal)
  return { (l.emit t).allowKey true with cursor := c }

def openFlow? (l : Lexer) (t : Token) : Option Lexer := do
  let l ← l.rememberKey?
  let l := { l with keyPlace := none, outerKeyPlaces := l.keyPlace :: l.outerKeyPlaces }
  return (l.emitMark t 1).allowKey true

def closeFlow? (l : Lexer) (t : Token) : Option Lexer := do
  let l ← l.forgetKey?
  let l := (l.emitMark t 1).allowKey false
  match l.outerKeyPlaces with
  | [] => return l
  | place :: rest => return { l with keyPlace := place, outerKeyPlaces := rest }

/-- Adds the mark between the elements of brackets. -/
def flowEntry? (l : Lexer) : Option Lexer := do
  let l ← l.forgetKey?
  return (l.emitMark .flowEntry 1).allowKey true

/-- Adds the mark before an element of a block sequence. -/
def blockEntry? (l : Lexer) : Option Lexer := do
  if !l.inFlow && !l.keyAllowed then none
  else
    let l ← (l.openBlockHere .blockSequenceStart).forgetKey?
    return (l.emitMark .blockEntry 1).allowKey true

/-- Adds the mark before an explicit key. -/
def key? (l : Lexer) : Option Lexer := do
  if !l.inFlow && !l.keyAllowed then none
  else
    let l ← (l.openBlockHere .blockMappingStart).forgetKey?
    return (l.emitMark .key 1).allowKey !l.inFlow

/-- Adds the mark before a value. If a key may have begun before, its token goes in front of it. -/
def value? (l : Lexer) : Option Lexer :=
  match l.keyPlace with
  | some place =>
    let l := (l.insertAt place.number .key).openBlock place.column place.number .blockMappingStart
    some { (l.emitMark .value 1).allowKey false with keyPlace := none }
  | none =>
    if !l.inFlow && !l.keyAllowed then none
    else
      let l := l.openBlockHere .blockMappingStart
      some ((l.emitMark .value 1).allowKey !l.inFlow)

/-- Adds a directive or a document mark, which ends all blocks. -/
def emitTopLevel? (l : Lexer) (read : Cursor → Option (Token × Cursor)) : Option Lexer := do
  let l ← (l.closeBlocks 0).forgetKey?
  let (t, c) ← read l.cursor
  return { (l.emit t).allowKey false with cursor := c }

/-- Whether a plain scalar can start with `ch`, which stands here. -/
def startsPlain (l : Lexer) (ch : Char) : Bool :=
  if ch == '-' then !(l.cursor.peek? 1).any isBlank
  else if ch == '?' || ch == ':' then !l.inFlow && !l.cursor.spacedAt 1
  else !(isSpacing ch || ",[]\x7b\x7d#&*!|>'\"%@".toList.contains ch || ch == '\x60')

/-- Reads the next token, which starts with `ch`. -/
def next? (l : Lexer) (ch : Char) : Option Lexer :=
  let c := l.cursor
  if c.column = 0 && ch == '%' then l.emitTopLevel? directive?
  else if c.marksDocument '-' then l.emitTopLevel? fun c => some (.documentStart, c.advance 3)
  else if c.marksDocument '.' then l.emitTopLevel? fun c => some (.documentEnd, c.advance 3)
  else if ch == '[' then l.openFlow? .flowSequenceStart
  else if ch == '\x7b' then l.openFlow? .flowMappingStart
  else if ch == ']' then l.closeFlow? .flowSequenceEnd
  else if ch == '\x7d' then l.closeFlow? .flowMappingEnd
  else if ch == ',' then l.flowEntry?
  else if ch == '-' && c.spacedAt 1 then l.blockEntry?
  else if ch == '?' && (l.inFlow || c.spacedAt 1) then l.key?
  else if ch == ':' && (l.inFlow || c.spacedAt 1) then l.value?
  else if ch == '*' then
    l.emitNode? fun c => (anchorName? c).map fun (name, c) => (.alias name, c)
  else if ch == '&' then
    l.emitNode? fun c => (anchorName? c).map fun (name, c) => (.anchor name, c)
  else if ch == '!' then l.emitNode? (tag? l.inFlow)
  else if ch == '|' && !l.inFlow then l.emitBlock? false
  else if ch == '>' && !l.inFlow then l.emitBlock? true
  else if ch == '\'' then l.emitQuoted? false
  else if ch == '"' then l.emitQuoted? true
  else if l.startsPlain ch then l.emitPlain?
  else none

def finish? (l : Lexer) : Option (Array Token) := do
  let l ← (l.closeBlocks 0).forgetKey?
  return l.tokens.push .streamEnd

/-- Reads tokens up to the end of the text; `fuel` is more than the number of bytes left. -/
def run? : (fuel : Nat) → Lexer → Option (Array Token)
  | 0, _ => none
  | fuel + 1, l => do
    let l ← (l.skipSpacing (fuel + 1)).forgetStale?
    let l := l.closeBlocks (l.cursor.column + 1)
    match l.cursor.peek? 0 with
    | none => l.finish?
    | some ch => run? fuel (← l.next? ch)

end Lexer

/-- The tokens of a text, or nothing when it is not well-formed. -/
def tokenize? (text : List Char) : Option (Array Token) :=
  if text.all isAdmissible then
    let cursor := Cursor.start (normalizeBreaks text)
    Lexer.run? (cursor.left + 2) { cursor }
  else none

end TextStore.Yaml
