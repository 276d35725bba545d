import IntLang.Text

/-!
# Numbers in decimal and hexadecimal

Writing integers, and reading them back: a run of ASCII digits, with a sign where one is
allowed. No grouping marks and no blanks are read.

## Main definitions

* `Text.ofNat`, `Text.ofInt`, `Text.ofHex`;
* `Text.natural?`, `Text.integer?`, and `Text.integerWithin?` for a bounded width.
-/

namespace IntLang

/-! ### Writing -/

namespace Text

/-- A natural number in decimal. -/
def ofNat (n : Nat) : Text := ofChars (Nat.toDigits 10 n)

/-- An integer in decimal, with a minus sign if it is negative. -/
def ofInt : Int → Text
  | .ofNat n => ofNat n
  | .negSucc n => "-" ++ ofNat (n + 1)

/-- A number in lower case hexadecimal, with zeros in front up to `width` digits. -/
def ofHex (width n : Nat) : Text :=
  let digits := Nat.toDigits 16 n
  ofChars (List.replicate (width - digits.length) '0' ++ digits)

end Text

/-! ### Reading -/

/-- Whether a byte is an ASCII digit. -/
def isDigitByte (b : UInt8) : Bool := 0x30 ≤ b && b ≤ 0x39

/-- The value of an ASCII digit. -/
def digitValue (b : UInt8) : Nat := b.toNat % 16

/-- The number that a run of digits spells, most significant first. -/
def digitsValue (ds : List UInt8) : Nat := ds.foldl (fun n d => n * 10 + digitValue d) 0

/-- A sign in front of a number, and what follows it. -/
def splitSign : List UInt8 → Bool × List UInt8
  | 0x2D :: rest => (true, rest)
  | 0x2B :: rest => (false, rest)
  | bytes => (false, bytes)

namespace Text

/-- The number spelled by a text of ASCII digits, at least one. -/
def natural? (t : Text) : Option Nat :=
  if t.bytes.isEmpty || !t.bytes.all isDigitByte then none else some (digitsValue t.bytes)

/-- The integer spelled by ASCII digits behind an optional sign. -/
def integer? (t : Text) : Option Int :=
  let (negative, digits) := splitSign t.bytes
  (natural? ⟨digits⟩).map fun n => if negative then -(n : Int) else n

/-- The integer spelled by a text, if it fits in two's complement of `width` bits. -/
def integerWithin? (width : Nat) (t : Text) : Option Int :=
  (integer? t).filter fun n => -(Nat.pow 2 (width - 1) : Int) ≤ n && n < Nat.pow 2 (width - 1)

end Text

end IntLang
