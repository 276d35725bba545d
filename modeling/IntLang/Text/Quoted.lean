import IntLang.Text.Blank
import IntLang.Text.Decimal
import IntLang.Text.Printable

/-!
# Quoted text

A text between double quotes, written so that it can be told what bytes it holds: a quote and a
backslash get a backslash in front, the usual controls have a letter, a stray byte is written
as its two hexadecimal digits, and a character that is not printable as its code.
-/

namespace IntLang

/-- The letter of a control that has one. -/
def controlLetter? : Char → Option String
  | '\x07' => some "\\a"
  | '\x08' => some "\\b"
  | '\x0c' => some "\\f"
  | '\n' => some "\\n"
  | '\r' => some "\\r"
  | '\t' => some "\\t"
  | '\x0b' => some "\\v"
  | _ => none

/-- A character as it stands between quotes. -/
def quoteChar (c : Char) : Text :=
  if c = '"' || c = '\\' then .ofChars ['\\', c]
  else if isPrintable c then .ofChars [c]
  else match controlLetter? c with
    | some s => s
    | none =>
      let n := c.toNat
      if n < 0x80 then "\\x" ++ .ofHex 2 n
      else if n < 0x10000 then "\\u" ++ .ofHex 4 n
      else "\\U" ++ .ofHex 8 n

/-- A glyph as it stands between quotes. -/
def Glyph.quote : Glyph → Text
  | scalar c => quoteChar c
  | stray b => "\\x" ++ .ofHex 2 b.toNat

/-- A text between double quotes. -/
def Text.quote (t : Text) : Text :=
  "\"" ++ Text.concat (t.glyphs.map Glyph.quote) ++ "\""

end IntLang
