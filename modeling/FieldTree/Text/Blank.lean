/-! Blank characters, and text without the blanks at its two ends. -/

namespace FieldTree.Text

/-- Spaces, line breaks and separators of any script, and the four information separators. -/
def isBlank (c : Char) : Bool :=
  let code := c.toNat
  (0x9 ≤ code && code ≤ 0xd) || (0x1c ≤ code && code ≤ 0x20) || code == 0x85 || code == 0xa0 ||
    code == 0x1680 || (0x2000 ≤ code && code ≤ 0x200a) || code == 0x2028 || code == 0x2029 ||
    code == 0x202f || code == 0x205f || code == 0x3000

/-- The four information separators. -/
def isSeparator (c : Char) : Bool := 0x1c ≤ c.toNat && c.toNat ≤ 0x1f

/-- The characters from the first to the last that are not of a kind. -/
def trimBy (p : Char → Bool) (chars : List Char) : List Char := ((chars.dropWhile p).reverse.dropWhile p).reverse

def trim (chars : List Char) : List Char := trimBy isBlank chars

def strip (text : String) : String := String.ofList (trim text.toList)

/-- Lowers the letters `A` to `Z` alone. It is used before comparing with words in these letters. -/
def lower (text : String) : String := String.ofList (text.toList.map Char.toLower)

end FieldTree.Text
