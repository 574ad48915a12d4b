import PairIndex.Number.Decimal
import PairIndex.Number.Power
import PairIndex.Number.Rounding

/-! Double-precision numbers by their bits: the nearest one to an exact ratio, and the shortest decimal text that reads
back as the same number. All work is done in exact integer arithmetic. -/

namespace PairIndex

/-- A double-precision number, given by its sixty-four bits. -/
structure Double where
  bits : UInt64
  deriving DecidableEq, Repr

namespace Double

/-- What a double stands for. A finite one is `mantissa * 2 ^ exponent`, with its sign kept apart. -/
inductive Shape where
  | nan
  | infinite (negative : Bool)
  | finite (negative : Bool) (mantissa : Nat) (exponent : Int)
  deriving DecidableEq, Repr

def exponentField (x : Double) : Nat :=
  (x.bits.toNat / Number.twoTo 52) % 2048

/-- The fraction below the leading bit. -/
def fraction (x : Double) : Nat :=
  x.bits.toNat % Number.twoTo 52

/-- Whether the sign bit is set. -/
def negative (x : Double) : Bool :=
  decide (Number.twoTo 63 ≤ x.bits.toNat)

/-- Reads off sign, mantissa and exponent. -/
def shape (x : Double) : Shape :=
  if x.exponentField = 2047 then
    if x.fraction = 0 then .infinite x.negative else .nan
  else if x.exponentField = 0 then .finite x.negative x.fraction (-1074)
  else .finite x.negative (Number.twoTo 52 + x.fraction) (x.exponentField - 1075)

/-- The double with the given sign whose other bits spell a number. -/
def ofMagnitude (negative : Bool) (magnitude : Nat) : Double :=
  ⟨UInt64.ofNat ((if negative then Number.twoTo 63 else 0) + magnitude)⟩

/-- The bits of infinity, sign apart. -/
def infinityMagnitude : Nat :=
  2047 * Number.twoTo 52

def infinity (negative : Bool) : Double :=
  ofMagnitude negative infinityMagnitude

def nan : Double :=
  ofMagnitude false (infinityMagnitude + Number.twoTo 51)

/-- The exponent at which `num / den` has a mantissa of fifty-three bits, no lower than that of the smallest double. -/
def exponentFor (num den : Nat) : Int :=
  let guess : Int := (Nat.log2 num : Int) - Nat.log2 den - 52
  let short :=
    if 0 ≤ guess then num < den * Number.twoTo (52 + guess.toNat)
    else num * Number.twoTo (-guess).toNat < den * Number.twoTo 52
  max (if short then guess - 1 else guess) (-1074)

/-- The double nearest to a ratio of natural numbers, a half going to the even mantissa. -/
def nearest (negative : Bool) (num den : Nat) : Double :=
  if num = 0 ∨ den = 0 then ofMagnitude negative 0
  else
    let e := exponentFor num den
    let mantissa :=
      if 0 ≤ e then Number.roundHalfEven num (den * Number.twoTo e.toNat)
      else Number.roundHalfEven (num * Number.twoTo (-e).toNat) den
    let magnitude := (e + 1074).toNat * Number.twoTo 52 + mantissa
    ofMagnitude negative (min magnitude infinityMagnitude)

/-- The double nearest to `digits * 10 ^ exponent`. Powers of ten far outside the range are not worked out. -/
def ofDecimal (negative : Bool) (digits : Nat) (exponent : Int) : Double :=
  if digits = 0 then ofMagnitude negative 0
  else
    let order := exponent + (Number.decimalDigits digits).length
    if 400 < order then infinity negative
    else if order < -400 then ofMagnitude negative 0
    else if 0 ≤ exponent then nearest negative (digits * Number.tenTo exponent.toNat) 1
    else nearest negative digits (Number.tenTo (-exponent).toNat)

/-- The double nearest to an integer. -/
def ofInt (n : Int) : Double :=
  nearest (decide (n < 0)) n.natAbs 1

/-- The exact value of a finite double. -/
def toRat? (x : Double) : Option Rat :=
  match x.shape with
  | .finite negative m e =>
    let magnitude : Rat := if 0 ≤ e then (m * Number.twoTo e.toNat : Nat) else mkRat m (Number.twoTo (-e).toNat)
    some (if negative then -magnitude else magnitude)
  | _ => none

/-- The double nearest to a rational number. -/
def ofRat (q : Rat) : Double :=
  nearest (decide (q < 0)) q.num.natAbs q.den

/-- A finite double cut off at the point. -/
def truncate? (x : Double) : Option Int :=
  match x.shape with
  | .finite negative m e =>
    let whole : Nat := if 0 ≤ e then m * Number.twoTo e.toNat else m / Number.twoTo (-e).toNat
    some (if negative then -(whole : Int) else whole)
  | _ => none

def isZero (x : Double) : Bool :=
  x.bits.toNat % Number.twoTo 63 == 0

/-- A decimal number `digits * 10 ^ exponent`. -/
structure Decimal where
  digits : Nat
  exponent : Int
  deriving DecidableEq, Repr

/-- Whether a decimal number reads back as the positive double with the given bits. -/
def Decimal.readsAs (d : Decimal) (magnitude : Nat) : Bool :=
  ofDecimal false d.digits d.exponent == ofMagnitude false magnitude

/-- The order of magnitude of `num / den`: the power of ten that its decimal digits end below. -/
def decimalOrder (num den : Nat) : Int :=
  let guess : Int := (Number.decimalDigits num).length - (Number.decimalDigits den).length
  let atLeast := if 0 ≤ guess then den * Number.tenTo guess.toNat ≤ num else den ≤ num * Number.tenTo (-guess).toNat
  if atLeast then guess + 1 else guess

/-- The multiples of `10 ^ exponent` next to `num / den`, the nearer one first. -/
def decimalNeighbours (num den : Nat) (exponent : Int) : List Decimal :=
  let n := if 0 ≤ exponent then num else num * Number.tenTo (-exponent).toNat
  let d := if 0 ≤ exponent then den * Number.tenTo exponent.toNat else den
  let near := Number.roundHalfEven n d
  let far := if near * d ≤ n then near + 1 else near - 1
  [⟨near, exponent⟩, ⟨far, exponent⟩]

/-- The first of the neighbours on ever finer grids that reads back, trying `fuel` grids. -/
def shortestFrom (num den magnitude : Nat) (order : Int) : Nat → Nat → Decimal
  | 0, _ => ⟨num, 0⟩
  | fuel + 1, count =>
    match (decimalNeighbours num den (order - count)).find? (·.readsAs magnitude) with
    | some d => d
    | none => shortestFrom num den magnitude order fuel (count + 1)

/-- The shortest decimal number that reads back as a positive finite double. -/
def shortest (mantissa : Nat) (exponent : Int) (magnitude : Nat) : Decimal :=
  let num := if 0 ≤ exponent then mantissa * Number.twoTo exponent.toNat else mantissa
  let den := if 0 ≤ exponent then 1 else Number.twoTo (-exponent).toNat
  shortestFrom num den magnitude (decimalOrder num den) 17 1

/-- The characters of an exponent: a sign and at least two digits. -/
def exponentChars (e : Int) : List Char :=
  'e' :: (if e < 0 then '-' else '+') :: Number.paddedChars 2 e.natAbs

/-- The characters of digits whose point stands `point` places after the first: positional from `1e-4` up to below
`1e16` and with at least one decimal, otherwise with one digit before the point and an exponent. -/
def layout (digits : List Char) (point : Int) : List Char :=
  if -4 < point ∧ point ≤ 16 then
    if point ≤ 0 then '0' :: '.' :: List.replicate (-point).toNat '0' ++ digits
    else if (digits.length : Int) ≤ point then
      digits ++ List.replicate (point.toNat - digits.length) '0' ++ ['.', '0']
    else digits.take point.toNat ++ '.' :: digits.drop point.toNat
  else
    match digits with
    | [] => []
    | [d] => d :: exponentChars (point - 1)
    | d :: rest => d :: '.' :: rest ++ exponentChars (point - 1)

/-- A number without the zeros at its end, and how many there were. -/
def stripZeros (n : Nat) : List Nat :=
  (Number.decimalDigits n).dropWhile (· == 0)

/-- The shortest decimal text that reads back as the same double. -/
def toChars (x : Double) : List Char :=
  match x.shape with
  | .nan => "nan".toList
  | .infinite negative => (if negative then ['-'] else []) ++ "inf".toList
  | .finite negative mantissa exponent =>
    let sign := if negative then ['-'] else []
    if mantissa = 0 then sign ++ "0.0".toList
    else
      let d := shortest mantissa exponent (x.bits.toNat % Number.twoTo 63)
      let all := Number.decimalDigits d.digits
      let kept := (stripZeros d.digits).reverse.map Number.digitChar
      sign ++ layout kept (d.exponent + all.length)

def toText (x : Double) : String :=
  String.ofList x.toChars

end Double
end PairIndex
