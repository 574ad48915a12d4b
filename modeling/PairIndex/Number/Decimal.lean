/-! Decimal digits and the decimal text of integers. -/

namespace PairIndex.Number

/-- The decimal digits of a number, lowest first; zero has none. -/
def decimalDigits (n : Nat) : List Nat :=
  if h : 0 < n then
    have : n / 10 < n := Nat.div_lt_self h (by decide)
    n % 10 :: decimalDigits (n / 10)
  else []

def digitChar (d : Nat) : Char :=
  Char.ofNat (48 + d)

/-- The decimal characters of a number; zero is one digit. -/
def decimalChars (n : Nat) : List Char :=
  if n = 0 then ['0'] else (decimalDigits n).reverse.map digitChar

/-- The decimal text of a number, with `0` in front up to the given width. -/
def paddedChars (width n : Nat) : List Char :=
  let chars := decimalChars n
  List.replicate (width - chars.length) '0' ++ chars

/-- The decimal characters of an integer, with a minus sign if it is negative. -/
def integerChars (n : Int) : List Char :=
  if n < 0 then '-' :: decimalChars n.natAbs else decimalChars n.natAbs

def integerText (n : Int) : String :=
  String.ofList (integerChars n)

end PairIndex.Number
