import TextStore.Yaml.Scalar

/-!
# Numbers in plain scalars

* `unsigned?`, `negative?` : integers in decimal, hexadecimal, octal and binary;
* `isNumber` : whether a text is a number that is not an integer;
* `leadsWithZero` : digits with a needless zero in front, which are no number at all.

Signs, points and exponents are those of the common schema; there are no separators between digits.
-/

namespace TextStore.Yaml

/-- The number that digits of a base stand for; there must be one digit at least. -/
def digits? (base : Nat) (cs : List Char) : Option Nat :=
  if cs.isEmpty then none
  else
    cs.foldl (fun n c =>
      match n, hexValue? c with
      | some n, some d => if d < base then some (n * base + d) else none
      | _, _ => none) (some 0)

def dropPlus : List Char → List Char
  | '+' :: rest => rest
  | cs => cs

def dropSign : List Char → List Char
  | '+' :: rest => rest
  | '-' :: rest => rest
  | cs => cs

/-- Digits with a needless zero in front, with or without a sign. -/
def leadsWithZero (cs : List Char) : Bool :=
  match dropSign cs with
  | '0' :: d :: rest => (d :: rest).all isDigit
  | _ => false

/-- The digits after a base mark, and the base. -/
def based? : List Char → Option (Nat × List Char)
  | '0' :: 'x' :: rest => some (16, rest)
  | '0' :: 'o' :: rest => some (8, rest)
  | '0' :: 'b' :: rest => some (2, rest)
  | _ => none

def unsigned? (cs : List Char) : Option Nat :=
  match based? (dropPlus cs) with
  | some (base, rest) => digits? base rest
  | none => if leadsWithZero cs then none else digits? 10 (dropPlus cs)

def negative? : List Char → Option Int
  | '-' :: rest =>
    let magnitude :=
      match based? rest with
      | some (base, digits) => digits? base digits
      | none => if leadsWithZero rest then none else digits? 10 rest
    magnitude.map fun n => -(n : Int)
  | _ => none

def integer? (cs : List Char) : Option Int :=
  match unsigned? cs with
  | some n => some n
  | none => negative? cs

/-! ## Numbers with a point or an exponent -/

/-- A decimal number: `digits · 10 ^ exponent`. -/
structure Decimal where
  digits : Nat
  exponent : Int

/-- Reads an exponent: a mark, a sign if there is one, and digits. No exponent is zero. -/
def exponent? : List Char → Option Int
  | [] => some 0
  | c :: rest =>
    if c == 'e' || c == 'E' then
      match rest with
      | '-' :: more => (digits? 10 more).map fun n => -(n : Int)
      | _ => (digits? 10 (dropPlus rest)).map fun n => (n : Int)
    else none

def decimal? (cs : List Char) : Option Decimal := do
  let whole := cs.takeWhile isDigit
  let rest := cs.dropWhile isDigit
  let (fraction, rest) :=
    match rest with
    | '.' :: more => (more.takeWhile isDigit, more.dropWhile isDigit)
    | _ => ([], rest)
  let digits ← digits? 10 (whole ++ fraction)
  let exponent ← exponent? rest
  return { digits, exponent := exponent - fraction.length }

/-- The first number that is rounded to infinity by double precision: halfway between the largest
double and the next power of two. -/
def overflowBound : Nat := Nat.pow 2 1024 - Nat.pow 2 970

/-- Whether the number is finite in double precision. Far from the bound the number of digits
decides. -/
def Decimal.isFinite (d : Decimal) : Bool :=
  let size : Int := (Nat.toDigits 10 d.digits).length + d.exponent
  if d.digits = 0 || size < 300 then true
  else if 320 < size then false
  else if 0 ≤ d.exponent then decide (d.digits * Nat.pow 10 d.exponent.toNat < overflowBound)
  else decide (d.digits < overflowBound * Nat.pow 10 (-d.exponent).toNat)

/-- The spellings of infinity without a sign. -/
def isInfinity (cs : List Char) : Bool :=
  [".inf", ".Inf", ".INF"].any fun spelling => spelling.toList == cs

/-- The spellings of the number that is none. -/
def isNotANumber (cs : List Char) : Bool :=
  [".nan", ".NaN", ".NAN"].any fun spelling => spelling.toList == cs

/-- Whether the text is a number with a point or an exponent, or one of the special numbers. -/
def isNumber (cs : List Char) : Bool :=
  let signed :=
    match cs with
    | '+' :: rest => if rest.head? == some '-' then none else some rest
    | '-' :: rest => some rest
    | _ => some cs
  isNotANumber cs ||
    signed.any fun cs => isInfinity cs || (decimal? cs).any Decimal.isFinite

end TextStore.Yaml
