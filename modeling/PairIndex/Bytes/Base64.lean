import PairIndex.Bytes.Basic

/-! Strict reading of base-64 text. Data characters come in groups of four; the last group may be cut to two or three
characters if `=` marks fill it up, after which nothing may follow. Bits that a cut group leaves over are ignored. -/

namespace PairIndex.Base64

/-- The six bits of a data character. -/
def value? (c : Char) : Option Nat :=
  if 'A' ≤ c ∧ c ≤ 'Z' then some (c.toNat - 65)
  else if 'a' ≤ c ∧ c ≤ 'z' then some (c.toNat - 71)
  else if '0' ≤ c ∧ c ≤ '9' then some (c.toNat + 4)
  else if c = '+' then some 62
  else if c = '/' then some 63
  else none

/-- Where a reader stands in the text. -/
structure Progress where
  /-- Data characters of the open group. -/
  quad : Nat
  /-- Bits of the last data character that no byte has used yet. -/
  left : Nat
  /-- Padding marks since the last data character. -/
  pads : Nat
  /-- Whether any padding mark was met. -/
  padded : Bool
  deriving DecidableEq, Repr

/-- Before the first character. -/
def Progress.start : Progress :=
  ⟨0, 0, 0, false⟩

/-- The reader after a data character of the given value, and the byte that it completes. -/
def Progress.push (p : Progress) (v : Nat) : Progress × Option UInt8 :=
  match p.quad with
  | 0 => (⟨1, v, 0, p.padded⟩, none)
  | 1 => (⟨2, v % 16, 0, p.padded⟩, some (UInt8.ofNat (4 * p.left + v / 16)))
  | 2 => (⟨3, v % 4, 0, p.padded⟩, some (UInt8.ofNat (16 * p.left + v / 4)))
  | _ => (⟨0, 0, 0, p.padded⟩, some (UInt8.ofNat (64 * p.left + v)))

/-- The bytes of the remaining text, or nothing if the text is malformed. -/
def decodeFrom? : Progress → List Char → Option Bytes
  | p, [] => if p.quad = 0 then some [] else none
  | p, c :: rest =>
    if c = '=' then
      if 2 ≤ p.quad then
        if 4 ≤ p.quad + (p.pads + 1) then
          if rest.isEmpty then some [] else none
        else decodeFrom? { p with pads := p.pads + 1, padded := true } rest
      else decodeFrom? { p with padded := true } rest
    else
      match value? c with
      | none => none
      | some v =>
        if p.padded then none
        else
          let (next, byte) := p.push v
          (decodeFrom? next rest).map (byte.toList ++ ·)

/-- Reads base-64 characters; text that starts with a padding mark is refused. -/
def decodeChars? (chars : List Char) : Option Bytes :=
  if chars.head? = some '=' then none else decodeFrom? Progress.start chars

end PairIndex.Base64
