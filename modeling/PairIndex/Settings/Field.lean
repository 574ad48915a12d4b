import PairIndex.Json.Parser

/-! Reading the value of a setting from text: a number or a truth value, and the bounds that it has to keep. -/

namespace PairIndex

/-- What is wrong with a setting. -/
inductive FieldFault where
  /-- It is required and not set. -/
  | missing
  | notInteger
  | notNumber
  | notBoolean
  /-- It is none of the values it may have. -/
  | notListed
  /-- It is not above its bound. -/
  | notAbove
  /-- It is below its bound. -/
  | below
  /-- It is above its bound. -/
  | above
  /-- It is refused for the given reason. -/
  | refused (reason : String)
  deriving DecidableEq, Repr

def FieldFault.name : FieldFault → String
  | .missing => "missing"
  | .notInteger => "int_parsing"
  | .notNumber => "float_parsing"
  | .notBoolean => "bool_parsing"
  | .notListed => "literal_error"
  | .notAbove => "greater_than"
  | .below => "greater_than_equal"
  | .above => "less_than_equal"
  | .refused _ => "value_error"

/-- What is said about a refused value. -/
def FieldFault.reason? : FieldFault → Option String
  | .refused reason => some ("Value error, " ++ reason)
  | _ => none

namespace Field

/-! ## Numbers -/

/-- The text without the white space around it. -/
def strip (chars : List Char) : List Char :=
  ((chars.dropWhile Number.isPadding).reverse.dropWhile Number.isPadding).reverse

/-- Whether two underscores stand side by side. -/
def hasDoubleUnderscore : List Char → Bool
  | '_' :: '_' :: _ => true
  | _ :: rest => hasDoubleUnderscore rest
  | [] => false

/-- The text without its underscores, each of which has to stand between two other characters. -/
def dropUnderscores? (chars : List Char) : Option (List Char) :=
  if chars.head? == some '_' || chars.getLast? == some '_' || hasDoubleUnderscore chars then none
  else some (chars.filter (· != '_'))

/-- The text without a plus sign at its start, unless a minus sign follows it. -/
def dropPlus? : List Char → Option (List Char)
  | '+' :: '-' :: _ => none
  | '+' :: rest => some rest
  | chars => some chars

/-- What is left of a number after zeros, with single underscores between them, before its first other digit. At least
one character is left. -/
def dropZeros? : Char → List Char → Option (List Char)
  | last, [] => some [last]
  | last, c :: rest =>
    if c = '0' then dropZeros? c rest
    else if c = '_' then if last = '_' then none else dropZeros? c rest
    else if '1' ≤ c ∧ c ≤ '9' then some (c :: rest)
    else if c = '.' then some (last :: c :: rest)
    else none

/-- A number that starts with a digit or a minus sign, without zeros in front. -/
def dropLeadingZeros? : List Char → Option (List Char)
  | '0' :: rest => dropZeros? '0' rest
  | c :: rest => if ('1' ≤ c ∧ c ≤ '9') ∨ c = '-' then some (c :: rest) else none
  | [] => none

/-- A number without its decimals, if these are all zero. -/
def dropZeroDecimals (chars : List Char) : List Char :=
  match chars.span (· != '.') with
  | (whole, '.' :: decimals) => if decimals.all (· == '0') then whole else chars
  | _ => chars

/-- The number of ASCII digits, if there is at least one and nothing else. -/
def natural? (chars : List Char) : Option Nat :=
  if !chars.isEmpty && chars.all Char.isDigit then some (Json.digitsValue chars) else none

/-- Reads an integer: white space around it, a sign, single underscores between digits, and decimals that are all zero.
Zeros may stand in front, but not behind a minus sign. -/
def integer? (chars : List Char) : Option Int := do
  let unsigned ← dropLeadingZeros? (← dropPlus? (strip chars))
  match ← dropUnderscores? (dropZeroDecimals unsigned) with
  | '-' :: '0' :: _ :: _ => none
  | '-' :: digits => return -(← natural? digits : Nat)
  | digits => return (← natural? digits : Nat)

/-- The double that a word stands for, in any case. -/
def namedNumber? (negative : Bool) (chars : List Char) : Option Double :=
  let word := String.ofList (chars.map Char.toLower)
  if word = "inf" ∨ word = "infinity" then some (.infinity negative)
  else if word = "nan" then some ⟨if negative then Double.nan.bits ||| 0x8000000000000000 else Double.nan.bits⟩
  else none

/-- Reads a number without white space around it: a sign, digits with or without a point, and an exponent. -/
def plainNumber? (chars : List Char) : Option Double :=
  let (negative, unsigned) := Number.splitSign chars
  match namedNumber? negative unsigned with
  | some x => some x
  | none =>
    let (whole, rest) := Json.spanDigits unsigned
    let (fraction, rest) :=
      match rest with
      | '.' :: rest => Json.spanDigits rest
      | _ => ([], rest)
    let (exponent, rest) := Json.exponentPart rest
    if (whole ++ fraction).isEmpty || !rest.isEmpty then none
    else some (Double.ofDecimal negative (Json.digitsValue (whole ++ fraction)) (exponent.getD 0 - fraction.length))

/-- Reads a number: with white space around it, or else with single underscores in it. -/
def number? (chars : List Char) : Option Double :=
  match plainNumber? (strip chars) with
  | some x => some x
  | none => if chars.contains '_' then (dropUnderscores? chars).bind plainNumber? else none

/-! ## Truth values -/

/-- Reads a truth value, in any case. -/
def boolean? (text : String) : Option Bool :=
  let word := String.ofList (text.toList.map Char.toLower)
  if ["1", "on", "t", "true", "y", "yes"].contains word then some true
  else if ["0", "off", "f", "false", "n", "no"].contains word then some false
  else none

/-! ## Bounds -/

structure IntegerBounds where
  low : Int
  high : Option Int := none

def IntegerBounds.check (b : IntegerBounds) (n : Int) : Except FieldFault Int :=
  if b.high.any fun high => decide (high < n) then .error .above
  else if n < b.low then .error .below
  else .ok n

/-- Whether a double is above an integer; what is no number is not. -/
def isAbove (x : Double) (bound : Int) : Bool :=
  match x.shape with
  | .nan => false
  | .infinite negative => !negative
  | .finite _ _ _ => x.toRat?.any fun q => decide ((bound : Rat) < q)

/-- Whether a double is below an integer; what is no number is not. -/
def isBelow (x : Double) (bound : Int) : Bool :=
  match x.shape with
  | .nan => false
  | .infinite negative => negative
  | .finite _ _ _ => x.toRat?.any fun q => decide (q < (bound : Rat))

/-- The bounds of a number that is not negative. -/
structure NumberBounds where
  /-- Whether zero is out of bounds. -/
  positive : Bool
  high : Int

/-- Checks a double against its bounds. What is no number breaks none of them. -/
def NumberBounds.check (b : NumberBounds) (x : Double) : Except FieldFault Double :=
  if isAbove x b.high then .error .above
  else if b.positive then if isBelow x 0 || x.isZero then .error .notAbove else .ok x
  else if isBelow x 0 then .error .below
  else .ok x

end Field
end PairIndex
