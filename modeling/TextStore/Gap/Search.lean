import TextStore.Gap.Read

/-!
# Searching a text

* `firstIn` : the first of a run of positions that satisfies a test;
* `findByte`, `findBytes` : the first match at or after a position.
-/

namespace TextStore.GapBuffer

/-- The first of the `count` positions from `start` on that satisfies `p`. -/
def firstIn (p : Nat → Bool) : (start count : Nat) → Option Nat
  | _, 0 => none
  | start, count + 1 => if p start then some start else firstIn p (start + 1) count

/-- The first position at or after `start` that holds `byte`. -/
def findByte (b : GapBuffer) (start : Nat) (byte : UInt8) : Option Nat :=
  firstIn (fun pos => b.byteAt pos == byte) start (b.length - start)

/-- Whether the text from `pos` on begins with `needle`. -/
def matchesAt (b : GapBuffer) (pos : Nat) : (needle : List UInt8) → Bool
  | [] => true
  | byte :: rest => b.byteAt pos == byte && b.matchesAt (pos + 1) rest

/-- The first position at or after `start` where `needle` stands in the text. The empty needle
stands everywhere in the text, its end included. -/
def findBytes (b : GapBuffer) (start : Nat) (needle : List UInt8) : Option Nat :=
  if b.length < start then none
  else if needle.isEmpty then some start
  else if b.length < needle.length then none
  -- beyond the last position that the needle fits at, the count is zero
  else firstIn (fun pos => b.matchesAt pos needle) start (b.length - needle.length + 1 - start)

end TextStore.GapBuffer
