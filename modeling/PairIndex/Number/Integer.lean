import PairIndex.Text.Blank
import PairIndex.Text.Digit

/-! Reading an integer from text: white space around it, one sign, decimal digits of any script, and a single
underscore between two digits. At most 4300 digits are read. -/

namespace PairIndex.Number

/-- Why a text is not read as an integer. -/
inductive IntegerError where
  /-- The text has another form. -/
  | malformed
  /-- The text has more digits than are read. -/
  | tooLong (digits : Nat)
  deriving DecidableEq, Repr

/-- The number of digits that are still read. -/
def digitLimit : Nat :=
  4300

/-- White space that may stand around an integer: all but the four information separators. -/
def isPadding (c : Char) : Bool :=
  Text.isBlank c && !(0x1c ≤ c.toNat && c.toNat ≤ 0x1f)

/-- The digits of a run that starts and ends with a digit and has at most one underscore between two of them. -/
def digitRun? : List Char → Option (List Nat)
  | [] => none
  | c :: rest =>
    match Text.digitValue? c with
    | none => none
    | some d =>
      match rest with
      | [] => some [d]
      | '_' :: more => (digitRun? more).map (d :: ·)
      | next :: more => (digitRun? (next :: more)).map (d :: ·)

/-- The number that decimal digits spell, highest first. -/
def ofDigits (digits : List Nat) : Nat :=
  digits.foldl (fun n d => 10 * n + d) 0

/-- The sign in front of a number and what follows it. -/
def splitSign : List Char → Bool × List Char
  | '-' :: rest => (true, rest)
  | '+' :: rest => (false, rest)
  | chars => (false, chars)

def readInteger (chars : List Char) : Except IntegerError Int :=
  let core := (chars.dropWhile isPadding).reverse.dropWhile isPadding |>.reverse
  let (negative, unsigned) := splitSign core
  match digitRun? unsigned with
  | none => .error .malformed
  | some digits =>
    if digitLimit < digits.length then .error (.tooLong digits.length)
    else .ok (if negative then -(ofDigits digits : Int) else ofDigits digits)

def readInteger? (text : String) : Option Int :=
  (readInteger text.toList).toOption

end PairIndex.Number
