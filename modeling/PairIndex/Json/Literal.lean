import PairIndex.Json.Basic
import PairIndex.Bytes.Basic
import PairIndex.Text.Printable

/-! The plain text of a value, as messages and text columns show it: a text stands for itself, and inside a list or an
object it is quoted. -/

namespace PairIndex.Json

/-- The escape of a character by its code point, in the shortest of three widths. -/
def codeEscape (n : Nat) : List Char :=
  let digits (count : Nat) := (List.range count).reverse.map fun i => Bytes.hexDigit (n / Nat.pow 16 i % 16)
  if n < 0x100 then '\\' :: 'x' :: digits 2
  else if n < 0x10000 then '\\' :: 'u' :: digits 4
  else '\\' :: 'U' :: digits 8

/-- The characters that stand for one character between the given quotes. -/
def literalChar (mark c : Char) : List Char :=
  if c = mark ∨ c = '\\' then ['\\', c]
  else if c = '\n' then ['\\', 'n']
  else if c = '\r' then ['\\', 'r']
  else if c = '\t' then ['\\', 't']
  else if Text.isPrintable c then [c]
  else codeEscape c.toNat

/-- A text in single quotes, or in double quotes if it has a single quote and no double one. -/
def quotedChars (text : String) : List Char :=
  let chars := text.toList
  let mark := if chars.contains '\'' ∧ ¬chars.contains '"' then '"' else '\''
  mark :: chars.flatMap (literalChar mark) ++ [mark]

mutual

/-- The characters of a value inside a list or an object. -/
def literalChars : Json → List Char
  | .null => "None".toList
  | .bool true => "True".toList
  | .bool false => "False".toList
  | .int n => Number.integerChars n
  | .float x => x.toChars
  | .str text => quotedChars text
  | .arr items => '[' :: literalItems items ++ [']']
  | .obj members => '{' :: literalMembers members ++ ['}']

def literalItems : List Json → List Char
  | [] => []
  | [item] => literalChars item
  | item :: rest => literalChars item ++ ',' :: ' ' :: literalItems rest

def literalMembers : List (String × Json) → List Char
  | [] => []
  | [(key, value)] => quotedChars key ++ ':' :: ' ' :: literalChars value
  | (key, value) :: rest => quotedChars key ++ ':' :: ' ' :: literalChars value ++ ',' :: ' ' :: literalMembers rest

end

/-- The plain text of a value. -/
def toText : Json → String
  | .str text => text
  | value => String.ofList value.literalChars

end PairIndex.Json
