import PairIndex.Text.Ranges

/-! White space, and trimming it from both ends of a text. -/

namespace PairIndex.Text

/-- The ranges of white space: the separators of Unicode, the line and paragraph controls and the four information
separators. -/
def blankRanges : List (Nat × Nat) :=
  [
   (0x9, 0xd), (0x1c, 0x20), (0x85, 0x85), (0xa0, 0xa0), (0x1680, 0x1680),
   (0x2000, 0x200a), (0x2028, 0x2029), (0x202f, 0x202f), (0x205f, 0x205f), (0x3000, 0x3000)]

/-- Whether a character is white space. -/
def isBlank (c : Char) : Bool :=
  inRanges c.toNat blankRanges

/-- The text without the white space at its start. -/
def trimStart (chars : List Char) : List Char :=
  chars.dropWhile isBlank

/-- The text without the white space at either end. -/
def trim (chars : List Char) : List Char :=
  (trimStart (trimStart chars).reverse).reverse

def trimText (text : String) : String :=
  String.ofList (trim text.toList)

end PairIndex.Text
