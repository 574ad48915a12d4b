import PairIndex.Json.Basic
import PairIndex.Bytes.Basic

/-! Writing JSON text: a blank after each comma and each colon, and only ASCII characters. -/

namespace PairIndex.Json

/-- The escape of one sixteen-bit unit: four hexadecimal digits. -/
def unitEscape (unit : Nat) : List Char :=
  ['\\', 'u', Bytes.hexDigit (unit / 4096 % 16), Bytes.hexDigit (unit / 256 % 16),
    Bytes.hexDigit (unit / 16 % 16), Bytes.hexDigit (unit % 16)]

/-- The characters that stand for one character inside quotes. -/
def escapeChar (c : Char) : List Char :=
  if c = '"' then ['\\', '"']
  else if c = '\\' then ['\\', '\\']
  else if c = '\n' then ['\\', 'n']
  else if c = '\r' then ['\\', 'r']
  else if c = '\t' then ['\\', 't']
  else if c = '\x08' then ['\\', 'b']
  else if c = '\x0c' then ['\\', 'f']
  else if 0x20 ≤ c.toNat ∧ c.toNat ≤ 0x7e then [c]
  else if c.toNat < 0x10000 then unitEscape c.toNat
  else
    unitEscape (0xd800 + (c.toNat - 0x10000) / 0x400) ++ unitEscape (0xdc00 + (c.toNat - 0x10000) % 0x400)

def quote (text : String) : List Char :=
  '"' :: text.toList.flatMap escapeChar ++ ['"']

/-- The text of a double. -/
def floatChars (x : Double) : List Char :=
  match x.shape with
  | .nan => "NaN".toList
  | .infinite negative => (if negative then ['-'] else []) ++ "Infinity".toList
  | .finite .. => x.toChars

mutual

/-- The characters of a value. -/
def printChars : Json → List Char
  | .null => "null".toList
  | .bool true => "true".toList
  | .bool false => "false".toList
  | .int n => Number.integerChars n
  | .float x => floatChars x
  | .str text => quote text
  | .arr items => '[' :: printItems items ++ [']']
  | .obj members => '{' :: printMembers members ++ ['}']

def printItems : List Json → List Char
  | [] => []
  | [item] => printChars item
  | item :: rest => printChars item ++ ',' :: ' ' :: printItems rest

def printMembers : List (String × Json) → List Char
  | [] => []
  | [(key, value)] => quote key ++ ':' :: ' ' :: printChars value
  | (key, value) :: rest => quote key ++ ':' :: ' ' :: printChars value ++ ',' :: ' ' :: printMembers rest

end

def print (value : Json) : String :=
  String.ofList value.printChars

end PairIndex.Json
