import IntLang.Text

/-!
# Characters of a text

A text is read as UTF-8. Where the bytes at some place are no well-formed character, the one
byte there is read alone, as a *stray*, and reading goes on behind it; a stray counts as the
replacement character wherever a character is asked for. So every text is a list of glyphs, and
the glyphs' bytes, one after another, are the text.

## Main definitions

* `Glyph`, a character or a stray byte;
* `Text.glyphs` and `Text.ofGlyphs`, between bytes and glyphs;
* `Text.isValidUtf8`, no stray byte.
-/

namespace IntLang

/-- One unit of a text read as UTF-8. -/
inductive Glyph where
  /-- A well-formed character. -/
  | scalar (c : Char)
  /-- A byte that begins no well-formed character. -/
  | stray (b : UInt8)
deriving DecidableEq, Inhabited

namespace Glyph

/-- The bytes a glyph stands for. -/
def bytes : Glyph → List UInt8
  | scalar c => Text.encodeChar c
  | stray b => [b]

/-- U+FFFD, which stands in for a stray byte. -/
def replacement : Char := '�'

/-- The character a glyph counts as. -/
def char : Glyph → Char
  | scalar c => c
  | stray _ => replacement

/-- Whether a glyph is a character. -/
def isScalar : Glyph → Bool
  | scalar _ => true
  | stray _ => false

end Glyph

namespace Utf8

/-! ### Reading one character -/

/-- Bytes that continue a character: `80` to `BF`. -/
def isTail (b : UInt8) : Bool := 0x80 ≤ b && b ≤ 0xBF

/-- The six low bits of a continuing byte. -/
def tailBits (b : UInt8) : Nat := b.toNat % 64

/-- The character of two bytes. The leading bytes `C0` and `C1` would spell ASCII the long way
round and are refused. -/
def two? (a b : UInt8) : Option Char :=
  if 0xC2 ≤ a && a ≤ 0xDF && isTail b then
    some (Char.ofNat (a.toNat % 32 * 64 + tailBits b))
  else none

/-- The character of three bytes. Codes that fit in two bytes are refused, and so are the
surrogate codes `D800` to `DFFF`. -/
def three? (a b c : UInt8) : Option Char :=
  let code := a.toNat % 16 * 4096 + tailBits b * 64 + tailBits c
  if 0xE0 ≤ a && a ≤ 0xEF && isTail b && isTail c
      && 0x800 ≤ code && !(0xD800 ≤ code && code ≤ 0xDFFF) then
    some (Char.ofNat code)
  else none

/-- The character of four bytes. Codes that fit in three bytes are refused, and so are those
above `10FFFF`. -/
def four? (a b c d : UInt8) : Option Char :=
  let code := a.toNat % 8 * 262144 + tailBits b * 4096 + tailBits c * 64 + tailBits d
  if 0xF0 ≤ a && a ≤ 0xF4 && isTail b && isTail c && isTail d
      && 0x10000 ≤ code && code ≤ 0x10FFFF then
    some (Char.ofNat code)
  else none

/-- The character that begins with the byte `a`, which is not ASCII, and goes on in `rest`. -/
def wide? (a : UInt8) : List UInt8 → Option Char
  | b :: c :: d :: _ => (two? a b).or ((three? a b c).or (four? a b c d))
  | [b, c] => (two? a b).or (three? a b c)
  | [b] => two? a b
  | [] => none

/-- The glyph that begins with the byte `a` and may go on in `rest`. -/
def first (a : UInt8) (rest : List UInt8) : Glyph :=
  if a < 0x80 then .scalar (Char.ofNat a.toNat)
  else match wide? a rest with
    | some c => .scalar c
    | none => .stray a

/-! ### Reading a text -/

/-- The glyphs of a byte list, of which the first `skip` bytes are already read. -/
def glyphsFrom : Nat → List UInt8 → List Glyph
  | _, [] => []
  | skip + 1, _ :: rest => glyphsFrom skip rest
  | 0, a :: rest =>
    let g := first a rest
    g :: glyphsFrom (g.bytes.length - 1) rest

end Utf8

namespace Text

/-- The glyphs of a text, first to last. -/
def glyphs (t : Text) : List Glyph := Utf8.glyphsFrom 0 t.bytes

/-- The text of some glyphs. -/
def ofGlyphs (gs : List Glyph) : Text := ⟨gs.flatMap Glyph.bytes⟩

/-- The characters of a text, a replacement character for each stray byte. -/
def chars (t : Text) : List Char := t.glyphs.map Glyph.char

/-- Whether every byte belongs to a well-formed character. -/
def isValidUtf8 (t : Text) : Bool := t.glyphs.all Glyph.isScalar

end Text

end IntLang
