import PairIndex.Json.Basic
import PairIndex.Number.Integer
import PairIndex.Bytes.Basic

/-! Reading JSON text. Beyond the standard, `NaN`, `Infinity` and `-Infinity` are numbers; of a repeated key the last
value counts; an integer of more than 4300 digits is refused. Half a surrogate pair is read as the replacement
character. -/

namespace PairIndex.Json

/-- Why a text is not read as JSON. -/
inductive ParseError where
  /-- The text has another form. -/
  | malformed
  /-- An integer has more digits than are read. -/
  | tooManyDigits (digits : Nat)
  deriving DecidableEq, Repr

/-- The blanks of JSON. -/
def isSpace (c : Char) : Bool :=
  c == ' ' || c == '\t' || c == '\n' || c == '\r'

/-- What follows the blanks. -/
def skipSpace (chars : List Char) : List Char :=
  chars.dropWhile isSpace

def hexQuad? (a b c d : Char) : Option Nat := do
  let a ← Bytes.hexValue? a
  let b ← Bytes.hexValue? b
  let c ← Bytes.hexValue? c
  let d ← Bytes.hexValue? d
  return ((a * 16 + b) * 16 + c) * 16 + d

/-- The code point of an escape of one letter. -/
def simpleEscape? : Char → Option Nat
  | '"' => some 0x22
  | '\\' => some 0x5c
  | '/' => some 0x2f
  | 'b' => some 0x08
  | 'f' => some 0x0c
  | 'n' => some 0x0a
  | 'r' => some 0x0d
  | 't' => some 0x09
  | _ => none

/-- The code points of a string after its opening quote, and what follows its closing quote. -/
def stringCodes : List Char → Option (List Nat × List Char)
  | [] => none
  | '"' :: rest => some ([], rest)
  | '\\' :: 'u' :: a :: b :: c :: d :: rest => do
    let code ← hexQuad? a b c d
    let (codes, after) ← stringCodes rest
    return (code :: codes, after)
  | '\\' :: e :: rest => do
    let code ← simpleEscape? e
    let (codes, after) ← stringCodes rest
    return (code :: codes, after)
  | c :: rest =>
    if c.toNat < 0x20 ∨ c = '\\' then none
    else do
      let (codes, after) ← stringCodes rest
      return (c.toNat :: codes, after)

/-- The characters of code points in which a high and a low surrogate stand for one character. -/
def joinSurrogates : List Nat → List Char
  | [] => []
  | [code] => [if 0xd800 ≤ code ∧ code ≤ 0xdfff then '\ufffd' else Char.ofNat code]
  | high :: low :: rest =>
    if 0xd800 ≤ high ∧ high ≤ 0xdbff ∧ 0xdc00 ≤ low ∧ low ≤ 0xdfff then
      Char.ofNat (0x10000 + (high - 0xd800) * 0x400 + (low - 0xdc00)) :: joinSurrogates rest
    else
      (if 0xd800 ≤ high ∧ high ≤ 0xdfff then '\ufffd' else Char.ofNat high) :: joinSurrogates (low :: rest)

/-- Reads a string after its opening quote. -/
def parseString (chars : List Char) : Except ParseError (String × List Char) :=
  match stringCodes chars with
  | some (codes, rest) => .ok (String.ofList (joinSurrogates codes), rest)
  | none => .error .malformed

/-- The leading decimal digits, and what follows them. -/
def spanDigits (chars : List Char) : List Char × List Char :=
  chars.span Char.isDigit

/-- The number that ASCII digits spell. -/
def digitsValue (digits : List Char) : Nat :=
  Number.ofDigits (digits.map fun c => c.toNat - 48)

/-- The digits after a point, if at least one follows it. -/
def fractionPart : List Char → List Char × List Char
  | '.' :: rest =>
    let (digits, after) := spanDigits rest
    if digits.isEmpty then ([], '.' :: rest) else (digits, after)
  | chars => ([], chars)

/-- The exponent after an `e`, if it has a digit. -/
def exponentPart (chars : List Char) : Option Int × List Char :=
  match chars with
  | e :: rest =>
    if e = 'e' ∨ e = 'E' then
      let (negative, unsigned) := Number.splitSign rest
      let (digits, after) := spanDigits unsigned
      if digits.isEmpty then (none, chars)
      else (some (if negative then -(digitsValue digits : Int) else digitsValue digits), after)
    else (none, chars)
  | [] => (none, [])

/-- The digits before the point: a zero alone, or digits that start with another one. -/
def wholePart : List Char → List Char × List Char
  | '0' :: rest => (['0'], rest)
  | chars => spanDigits chars

def parseNumber (negative : Bool) (chars : List Char) : Except ParseError (Json × List Char) :=
  let (whole, rest) := wholePart chars
  if whole.isEmpty then .error .malformed
  else
    let (fraction, rest) := fractionPart rest
    let (exponent, rest) := exponentPart rest
    if fraction.isEmpty ∧ exponent.isNone then
      if Number.digitLimit < whole.length then .error (.tooManyDigits whole.length)
      else
        let n := digitsValue whole
        .ok (.int (if negative then -(n : Int) else n), rest)
    else
      let digits := digitsValue (whole ++ fraction)
      .ok (.float (Double.ofDecimal negative digits (exponent.getD 0 - fraction.length)), rest)

/-- The characters after a given word, if the text starts with it. -/
def stripWord (word : String) (chars : List Char) : Option (List Char) :=
  if word.toList.isPrefixOf chars then some (chars.drop word.length) else none

def namedValues : List (String × Json) :=
  [("null", .null), ("true", .bool true), ("false", .bool false), ("NaN", .float Double.nan),
    ("Infinity", .float (Double.infinity false)), ("-Infinity", .float (Double.infinity true))]

def parseScalar (chars : List Char) : Except ParseError (Json × List Char) :=
  match namedValues.findSome? (fun (word, value) => (stripWord word chars).map (value, ·)) with
  | some result => .ok result
  | none =>
    match chars with
    | '-' :: rest => parseNumber true rest
    | _ => parseNumber false chars

mutual

/-- Reads a value at the first character. -/
def parseValue : Nat → List Char → Except ParseError (Json × List Char)
  | 0, _ => .error .malformed
  | fuel + 1, chars =>
    match chars with
    | '"' :: rest => do
      let (text, after) ← parseString rest
      return (.str text, after)
    | '[' :: rest =>
      match skipSpace rest with
      | ']' :: after => .ok (.arr [], after)
      | inside => do
        let (items, after) ← parseItems fuel inside
        return (.arr items, after)
    | '{' :: rest =>
      match skipSpace rest with
      | '}' :: after => .ok (.obj [], after)
      | inside => do
        let (members, after) ← parseMembers fuel [] inside
        return (.obj members, after)
    | _ => parseScalar chars

/-- Reads the items of an array up to its end, of which there is at least one. -/
def parseItems : Nat → List Char → Except ParseError (List Json × List Char)
  | 0, _ => .error .malformed
  | fuel + 1, chars => do
    let (item, rest) ← parseValue fuel chars
    match skipSpace rest with
    | ']' :: after => return ([item], after)
    | ',' :: more => do
      let (items, after) ← parseItems fuel (skipSpace more)
      return (item :: items, after)
    | _ => .error .malformed

/-- Reads the members of an object up to its end, of which there is at least one, after those already read. -/
def parseMembers : Nat → List (String × Json) → List Char → Except ParseError (List (String × Json) × List Char)
  | 0, _, _ => .error .malformed
  | fuel + 1, members, chars =>
    match chars with
    | '"' :: rest => do
      let (key, rest) ← parseString rest
      match skipSpace rest with
      | ':' :: rest => do
        let (value, rest) ← parseValue fuel (skipSpace rest)
        let members := Assoc.set key value members
        match skipSpace rest with
        | '}' :: after => return (members, after)
        | ',' :: more => parseMembers fuel members (skipSpace more)
        | _ => .error .malformed
      | _ => .error .malformed
    | _ => .error .malformed

end

/-- Reads a whole text as one value, with blanks around it. -/
def parse (text : String) : Except ParseError Json := do
  let chars := text.toList
  let (value, rest) ← parseValue (chars.length + 1) (skipSpace chars)
  if (skipSpace rest).isEmpty then return value else .error .malformed

end PairIndex.Json
