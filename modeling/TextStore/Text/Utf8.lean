/-!
# UTF-8

* `Utf8.encode` : the bytes of a text;
* `Utf8.decodeLossy` : the text of any bytes, with U+FFFD for each longest piece that starts like
  a character and is none;
* `Utf8.decode?` : the text of bytes that are well-formed throughout.

Well-formed means: shortest form, no surrogates, nothing above U+10FFFF.
-/

namespace TextStore.Utf8

def encode (text : String) : List UInt8 := text.toUTF8.toList

def replacement : Char := '\uFFFD'

/-- What the front of some bytes is: a character, or a piece that cannot be part of one, with the
number of bytes it takes after the first. -/
structure Front where
  char : Option Char
  more : Nat

def isContinuation (b : UInt8) : Bool := 0x80 ≤ b && b ≤ 0xBF

/-- The payload bits of a continuation byte. -/
def payload (b : UInt8) : Nat := b.toNat % 64

/-- The range in which the second byte after a leading byte of three or four must lie. -/
def secondRange (lead : UInt8) : UInt8 × UInt8 :=
  if lead == 0xE0 then (0xA0, 0xBF)
  else if lead == 0xED then (0x80, 0x9F)
  else if lead == 0xF0 then (0x90, 0xBF)
  else if lead == 0xF4 then (0x80, 0x8F)
  else (0x80, 0xBF)

/-- Whether `b` can follow the leading byte `lead`. -/
def isSecond (lead b : UInt8) : Bool :=
  (secondRange lead).1 ≤ b && b ≤ (secondRange lead).2

/-- Reads the front of `lead :: rest`. -/
def front (lead : UInt8) (rest : List UInt8) : Front :=
  if lead < 0x80 then ⟨some (Char.ofNat lead.toNat), 0⟩
  else if 0xC2 ≤ lead && lead ≤ 0xDF then
    match rest with
    | b :: _ =>
      if isContinuation b then ⟨some (Char.ofNat (lead.toNat % 32 * 64 + payload b)), 1⟩
      else ⟨none, 0⟩
    | [] => ⟨none, 0⟩
  else if 0xE0 ≤ lead && lead ≤ 0xEF then
    match rest with
    | b :: c :: _ =>
      if !isSecond lead b then ⟨none, 0⟩
      else if isContinuation c then
        ⟨some (Char.ofNat ((lead.toNat % 16 * 64 + payload b) * 64 + payload c)), 2⟩
      else ⟨none, 1⟩
    | [b] => ⟨none, if isSecond lead b then 1 else 0⟩
    | [] => ⟨none, 0⟩
  else if 0xF0 ≤ lead && lead ≤ 0xF4 then
    match rest with
    | b :: c :: d :: _ =>
      if !isSecond lead b then ⟨none, 0⟩
      else if !isContinuation c then ⟨none, 1⟩
      else if isContinuation d then
        ⟨some (Char.ofNat
          (((lead.toNat % 8 * 64 + payload b) * 64 + payload c) * 64 + payload d)), 3⟩
      else ⟨none, 2⟩
    | [b, c] =>
      ⟨none, if !isSecond lead b then 0 else if isContinuation c then 2 else 1⟩
    | [b] => ⟨none, if isSecond lead b then 1 else 0⟩
    | [] => ⟨none, 0⟩
  else ⟨none, 0⟩

/-- The characters of `bytes`, with `none` for each piece that is none. -/
def pieces : List UInt8 → List (Option Char)
  | [] => []
  | lead :: rest =>
    let f := front lead rest
    f.char :: pieces (rest.drop f.more)
termination_by bytes => bytes.length
decreasing_by simp only [List.length_drop, List.length_cons]; omega

/-- The text of `bytes`, with `replacement` for each piece that is no character. -/
def decodeLossy (bytes : List UInt8) : String :=
  String.ofList ((pieces bytes).map fun c => c.getD replacement)

/-- The text of `bytes`, if they are well-formed throughout. -/
def decode? (bytes : List UInt8) : Option String :=
  ((pieces bytes).mapM id).map String.ofList

end TextStore.Utf8
