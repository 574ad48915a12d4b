import PairIndex.Bytes.Basic

/-! Base-58 text of a byte string: the number that the bytes spell, written with 58 digits, after one `1` for every
leading zero byte. -/

namespace PairIndex.Base58

/-- The digits in order of value; the letters that look alike are left out. -/
def alphabet : List Char :=
  "123456789ABCDEFGHJKLMNPQRSTUVWXYZabcdefghijkmnopqrstuvwxyz".toList

/-- The character of a digit below 58. -/
def digitChar (d : Nat) : Char :=
  alphabet.getD d '1'

/-- The value of a digit character. -/
def digitValue? (c : Char) : Option Nat :=
  alphabet.findIdx? (· == c)

/-- The digits of a number in a base of at least two, lowest first and without a leading zero. -/
def digits (base : Nat) (n : Nat) : List Nat :=
  if h : 2 ≤ base ∧ 0 < n then
    have : n / base < n := Nat.div_lt_self h.2 h.1
    n % base :: digits base (n / base)
  else []

/-- The number of zero bytes in front. -/
def leadingZeros (bytes : Bytes) : Nat :=
  (bytes.takeWhile (· == 0)).length

/-- The base-58 characters of a byte string. -/
def encodeChars (bytes : Bytes) : List Char :=
  List.replicate (leadingZeros bytes) '1' ++ ((digits 58 bytes.toNatBE).reverse.map digitChar)

def encode (bytes : Bytes) : String :=
  String.ofList (encodeChars bytes)

/-- The number that a list of digit characters spells, highest first. -/
def number? (chars : List Char) : Option Nat :=
  chars.foldlM (fun n c => (digitValue? c).map (58 * n + ·)) 0

/-- Reads base-58 characters; a character outside the alphabet is refused. -/
def decodeChars? (chars : List Char) : Option Bytes := do
  let n ← number? chars
  let zeros := (chars.takeWhile (· == '1')).length
  return List.replicate zeros 0 ++ (digits 256 n).reverse.map UInt8.ofNat

def decode? (text : String) : Option Bytes :=
  decodeChars? text.toList

end PairIndex.Base58
