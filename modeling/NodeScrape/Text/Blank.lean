/-!
# Blank characters

The characters that count as white space in trimmed text.
-/

namespace NodeScrape.Text

/-- Whether a character is white space. -/
def isBlank (c : Char) : Bool :=
  let code := c.toNat
  (9 ≤ code && code ≤ 13) || code = 0x20 || code = 0x85 || code = 0xa0 || code = 0x1680 ||
    (0x2000 ≤ code && code ≤ 0x200a) || code = 0x2028 || code = 0x2029 || code = 0x202f ||
    code = 0x205f || code = 0x3000

/-- A text without the white space at its start. -/
def trimLeft (text : List Char) : List Char := text.dropWhile isBlank

/-- A text without the white space at both ends. -/
def trim (text : List Char) : List Char := (trimLeft (trimLeft text).reverse).reverse

end NodeScrape.Text
