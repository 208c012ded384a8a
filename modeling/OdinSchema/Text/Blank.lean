/-!
# Blank characters

What counts as blank around a word, and the removal of blanks from both
ends of a text. Texts are handled as lists of characters, which is where
their laws are stated; the `String` forms are read off those.
-/

namespace OdinSchema.Text

/-- The characters that may surround a word: controls used as separators,
the space, and the wider spaces and line breaks. The zero-width
characters are not among them. -/
def isBlank (c : Char) : Bool :=
  let code := c.toNat
  (9 ≤ code && code ≤ 13) || (28 ≤ code && code ≤ 32) || code == 0x85 || code == 0xA0 ||
    code == 0x1680 || (0x2000 ≤ code && code ≤ 0x200A) || code == 0x2028 || code == 0x2029 ||
    code == 0x202F || code == 0x205F || code == 0x3000

/-- A text without the blanks at its two ends. -/
def trim (text : List Char) : List Char :=
  ((text.dropWhile isBlank).reverse.dropWhile isBlank).reverse

end OdinSchema.Text
