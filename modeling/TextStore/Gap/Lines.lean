import TextStore.Gap.Search

/-!
# The lines of a text

A newline belongs to the line it ends: in `ab⏎cd` the positions 0 to 2 are on line 0 and the
positions 3 to 5 on line 1.

* `lineStart`, `lineEnd`, `lineNumber` : the line that a position is on;
* `lineCount` : the number of lines, at least one.
-/

namespace TextStore.GapBuffer

def newline : UInt8 := 10

/-- Refuses a position past the end of the text. -/
def checkPosition (b : GapBuffer) (pos : Nat) : Except BufferError Unit :=
  if b.length < pos then .error (.invalidPosition pos b.length) else .ok ()

/-- The position after the last newline before `pos`, or zero. -/
def startOfLine (b : GapBuffer) : (pos : Nat) → Nat
  | 0 => 0
  | pos + 1 => if b.byteAt pos == newline then pos + 1 else b.startOfLine pos

/-- The first position of the line that `pos` is on. -/
def lineStart (b : GapBuffer) (pos : Nat) : Except BufferError Nat :=
  (b.checkPosition pos).map fun _ => b.startOfLine pos

/-- The position of the newline that ends the line of `pos`, or the end of the text. -/
def lineEnd (b : GapBuffer) (pos : Nat) : Except BufferError Nat :=
  (b.checkPosition pos).map fun _ => (b.findByte pos newline).getD b.length

/-- The number of newlines before `pos`. -/
def lineNumber (b : GapBuffer) (pos : Nat) : Except BufferError Nat :=
  (b.checkPosition pos).map fun _ =>
    (List.range pos).countP fun i => b.byteAt i == newline

/-- The number of lines; a text without newline has one. -/
def lineCount (b : GapBuffer) : Nat := b.contents.count newline + 1

end TextStore.GapBuffer
