import IntLang.Encoding.ShiftJisTable
import IntLang.Text.Utf8

/-!
# Shift JIS

Bytes below `80` are ASCII, `A1` to `DF` are half-width katakana, and the leading bytes `81` to
`9F` and `E0` to `FC` make a character with the byte behind them. What makes no character is read
as a replacement character; a byte that cannot be the second of two is read again on its own.
-/

namespace IntLang.ShiftJis

/-- Whether a byte begins a character of two bytes. -/
def isLead (b : UInt8) : Bool := (0x81 ≤ b && b ≤ 0x9F) || (0xE0 ≤ b && b ≤ 0xFC)

/-- The character of one byte that is no leading byte. -/
def single (b : UInt8) : Char :=
  if b ≤ 0x80 then Char.ofNat b.toNat
  else if 0xA1 ≤ b && b ≤ 0xDF then Char.ofNat (0xFEC0 + b.toNat)
  else Glyph.replacement

/-- Whether a byte cannot be the second of two. -/
def isNoTrail (b : UInt8) : Bool := b < 0x40 || b = 0x7F

/-- The place of a second byte in its row. -/
def column (b : UInt8) : Nat := if b < 0x7F then b.toNat - 0x40 else b.toNat - 0x41

/-- The character of two bytes. -/
def double (lead trail : UInt8) : Char :=
  match rows.find? (·.1 = lead) with
  | some (_, row) => (row.flatMap String.toList).getD (column trail) Glyph.replacement
  | none => Glyph.replacement

/-- The characters of bytes in Shift JIS. -/
def decode : List UInt8 → List Char
  | [] => []
  | [b] => [if isLead b then Glyph.replacement else single b]
  | b :: t :: behind =>
    if !isLead b then single b :: decode (t :: behind)
    else if isNoTrail t then Glyph.replacement :: decode (t :: behind)
    else double b t :: decode behind

end IntLang.ShiftJis
