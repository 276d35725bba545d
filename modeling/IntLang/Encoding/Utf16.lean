import IntLang.Text.Utf8

/-!
# UTF-16

Text in units of two bytes, in either byte order. A character beyond the first 65536 is a pair
of surrogate units. What is no such pair is read as a replacement character: a surrogate alone,
two second halves in a row together, and a byte left over at the end.
-/

namespace IntLang.Utf16

/-- The order of the two bytes of a unit. -/
inductive ByteOrder where
  | littleEndian
  | bigEndian
deriving DecidableEq

/-- The unit of two bytes. -/
def ByteOrder.unit (order : ByteOrder) (a b : UInt8) : Nat :=
  match order with
  | littleEndian => a.toNat + 256 * b.toNat
  | bigEndian => 256 * a.toNat + b.toNat

/-- The units of a byte list; `none` for a byte left over. -/
def units (order : ByteOrder) : List UInt8 → List (Option Nat)
  | [] => []
  | [_] => [none]
  | a :: b :: rest => some (order.unit a b) :: units order rest

/-- Whether a unit is half of a pair. -/
def isSurrogate (u : Nat) : Bool := 0xD800 ≤ u && u ≤ 0xDFFF

/-- Whether a unit is the first half of a pair. -/
def isFirstHalf (u : Nat) : Bool := 0xD800 ≤ u && u ≤ 0xDBFF

/-- Whether a unit is the second half of a pair. -/
def isSecondHalf (u : Nat) : Bool := 0xDC00 ≤ u && u ≤ 0xDFFF

/-- The character of a surrogate unit and a second half behind it. -/
def pair (u v : Nat) : Char :=
  if isFirstHalf u then Char.ofNat (0x10000 + u % 1024 * 1024 + v % 1024)
  else Glyph.replacement

/-- The character of a unit that is not taken together with the one behind it. -/
def lone : Option Nat → Char
  | none => Glyph.replacement
  | some u => if isSurrogate u then Glyph.replacement else Char.ofNat u

/-- The character of two units, if they are taken together: a surrogate and a second half. -/
def together? : Option Nat → Option Nat → Option Char
  | some u, some v => if isSurrogate u && isSecondHalf v then some (pair u v) else none
  | _, _ => none

/-- The characters of units. -/
def chars : List (Option Nat) → List Char
  | [] => []
  | [u] => [lone u]
  | u :: v :: behind =>
    match together? u v with
    | some c => c :: chars behind
    | none => lone u :: chars (v :: behind)

/-- The characters of bytes in UTF-16. -/
def decode (order : ByteOrder) (bytes : List UInt8) : List Char := chars (units order bytes)

end IntLang.Utf16
