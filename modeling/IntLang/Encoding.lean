import IntLang.Encoding.ShiftJis
import IntLang.Encoding.Utf16
import IntLang.Text

/-!
# The encoding of a source file

A byte order mark at the beginning decides: the text behind it is UTF-8, taken as it is, or
UTF-16 in the byte order of the mark. Without a mark, bytes that are well-formed UTF-8 are that,
and all others are Shift JIS.
-/

namespace IntLang

/-- The encodings that are told apart. -/
inductive Encoding where
  | utf8
  | utf16
  | shiftJis
deriving DecidableEq, Inhabited

namespace Encoding

/-- The name of an encoding. -/
def name : Encoding → Text
  | utf8 => "utf-8"
  | utf16 => "utf-16"
  | shiftJis => "shift_jis"

/-- The text in the bytes of a source file, and the encoding it was in. -/
def decode (data : Text) : Text × Encoding :=
  match data.bytes with
  | 0xEF :: 0xBB :: 0xBF :: rest => (⟨rest⟩, utf8)
  | 0xFF :: 0xFE :: rest => (.ofChars (Utf16.decode .littleEndian rest), utf16)
  | 0xFE :: 0xFF :: rest => (.ofChars (Utf16.decode .bigEndian rest), utf16)
  | bytes =>
    if data.isValidUtf8 then (data, utf8) else (.ofChars (ShiftJis.decode bytes), shiftJis)

end Encoding

end IntLang
