import IntLang.Text.Utf8

/-!
# Blank characters

The characters that separate words and are trimmed from the ends of a text: the Unicode
property `White_Space`.
-/

namespace IntLang

/-- Whether a character is white space. -/
def isBlank (c : Char) : Bool :=
  let n := c.toNat
  (0x09 ≤ n && n ≤ 0x0D) || n == 0x20 || n == 0x85 || n == 0xA0 || n == 0x1680
    || (0x2000 ≤ n && n ≤ 0x200A) || n == 0x2028 || n == 0x2029 || n == 0x202F
    || n == 0x205F || n == 0x3000

namespace Text

/-- The glyphs without the blank ones at either end. -/
def trimGlyphs (gs : List Glyph) : List Glyph :=
  let blank (g : Glyph) : Bool := isBlank g.char
  ((gs.dropWhile blank).reverse.dropWhile blank).reverse

/-- The text without the blank characters at either end. -/
def trim (t : Text) : Text := ofGlyphs (trimGlyphs t.glyphs)

end Text

end IntLang
