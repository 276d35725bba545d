import IntLang.Single

/-!
# Reading a numeral

A numeral is a sign, digits with at most one point among them, and an exponent, of which only
one digit is obligatory. Its value is rounded once, from the exact decimal value to the nearest
single precision number. Only very long numerals are read otherwise, those with more than
`longestWhole` digits before the point: unless their first digits settle the result, they are
read as if there were no more than that many.

## Main definitions

* `Numeral`, the parts of a numeral, and `numeral?`, which finds them in a text;
* `nearest?`, a decimal value rounded to a single precision number;
* `Numeral.value?` and `ofText?`.
-/

namespace IntLang.Single

/-! ### The parts of a numeral -/

/-- The parts of a numeral. -/
structure Numeral where
  /-- Whether there is a minus sign in front. -/
  negative : Bool
  /-- The digits before the point, without zeros in front. -/
  whole : List UInt8
  /-- The digits behind the point. -/
  part : List UInt8
  /-- The power of ten at the end. -/
  exponent : Int
deriving DecidableEq

/-- The size of an exponent with these digits. Once it has come to ten thousand, the digits that
follow no longer count. -/
def exponentSize (digits : List UInt8) : Nat :=
  digits.foldl (fun n d => if n < 10000 then n * 10 + digitValue d else n) 0

/-- The exponent at the end of a numeral; none is the same as `e0`. -/
def exponent? : List UInt8 → Option Int
  | [] => some 0
  | e :: rest =>
    let (negative, digits) := splitSign rest
    if (e = 0x65 || e = 0x45) && !digits.isEmpty && digits.all isDigitByte then
      some (if negative then -(exponentSize digits : Int) else exponentSize digits)
    else none

/-- The digits behind the point, if there is a point, and what follows them. -/
def splitFraction : List UInt8 → List UInt8 × List UInt8
  | 0x2E :: rest => rest.span isDigitByte
  | bytes => ([], bytes)

/-- Whether a byte is the digit zero. -/
def isZeroByte (b : UInt8) : Bool := b = 0x30

/-- The numeral a text spells. -/
def numeral? (t : Text) : Option Numeral :=
  let (negative, unsigned) := splitSign t.bytes
  let (whole, rest) := unsigned.span isDigitByte
  let (part, rest) := splitFraction rest
  if whole.isEmpty && part.isEmpty then none
  else (exponent? rest).map fun exponent =>
    { negative, whole := whole.dropWhile isZeroByte, part, exponent }

/-! ### Its value -/

/-- The single precision number nearest to `digits * 10 ^ exponent`; `none` if that is too
large. The two early answers keep the powers of ten small: a magnitude of `10 ^ 40` is beyond all
finite numbers, and one below `10 ^ (-50)` rounds to zero. -/
def nearest? (digits : Nat) (exponent : Int) : Option Single :=
  let magnitude : Int := (Nat.toDigits 10 digits).length + exponent
  if digits = 0 then some zero
  else if 40 < magnitude then none
  else if magnitude < -50 then some zero
  else match exponent with
    | .ofNat k => ofRatio? (digits * Nat.pow 10 k) 1
    | .negSucc k => ofRatio? digits (Nat.pow 10 (k + 1))

/-- How many digits are tried first. -/
def firstDigits : Nat := 19

/-- How many digits before the point are told apart. -/
def longestWhole : Nat := 800

namespace Numeral

/-- The digits of a numeral from the first on that is not zero. -/
def digits (x : Numeral) : List UInt8 := (x.whole ++ x.part).dropWhile isZeroByte

/-- The power of ten by which the digits, read as one number, are multiplied. -/
def scale (x : Numeral) : Int := x.exponent - x.part.length

/-- Whether the first digits settle the value: only zeros follow, or one more in the last of them
would make no difference. -/
def isSettled (x : Numeral) : Bool :=
  let first := digitsValue (x.digits.take firstDigits)
  let rest := x.digits.drop firstDigits
  let scale := x.scale + rest.length
  rest.all isZeroByte || nearest? first scale = nearest? (first + 1) scale

/-- The value of a numeral as a single precision number; `none` if it is too large. If the first
digits do not settle it, the digits before the point beyond `longestWhole` are taken to stand
behind it. -/
def value? (x : Numeral) : Option Single :=
  let moved := if x.isSettled then 0 else (x.whole.drop longestWhole).length
  (nearest? (digitsValue x.digits) (x.scale - moved)).map (withSign x.negative)

end Numeral

/-- The single precision number a text spells. -/
def ofText? (t : Text) : Option Single := (numeral? t).bind Numeral.value?

end IntLang.Single
