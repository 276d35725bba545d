import IntLang.Text.Decimal

/-!
# Single precision numbers

A real literal is a binary floating point number of 32 bits. It is kept as its bits, and both
reading and writing are done in exact integer arithmetic: a finite number is `mantissa * 2 ^
exponent` with a natural `mantissa`, and nothing is ever computed with rounded values.

## Main definitions

* `Single`, the 32 bits, with `Single.mantissa` and `Single.exponent`;
* `Single.ofRatio?`, the number nearest to a quotient of naturals, halves going to even.
-/

namespace IntLang

/-- A binary floating point number of 32 bits: a sign, eight bits of exponent and 23 of
fraction. -/
structure Single where
  /-- The bits, the sign highest. -/
  bits : UInt32
deriving DecidableEq, Inhabited

namespace Single

/-- Positive zero. -/
def zero : Single := ⟨0⟩

/-- Whether the sign bit is set. -/
def isNegative (x : Single) : Bool := x.bits.toNat / 0x80000000 == 1

/-- The exponent field. -/
def exponentField (x : Single) : Nat := x.bits.toNat / 0x800000 % 256

/-- The fraction field. -/
def fraction (x : Single) : Nat := x.bits.toNat % 0x800000

/-- Whether the number is infinite or no number at all. -/
def isSpecial (x : Single) : Bool := x.exponentField == 255

/-- The natural number whose multiple by a power of two is the magnitude. Below the least
exponent the leading bit is not implied. -/
def mantissa (x : Single) : Nat :=
  if x.exponentField = 0 then x.fraction else 0x800000 + x.fraction

/-- The power of two by which the mantissa is multiplied. -/
def exponent (x : Single) : Int :=
  if x.exponentField = 0 then -149 else (x.exponentField : Int) - 150

/-- The same magnitude with a chosen sign. -/
def withSign (negative : Bool) (x : Single) : Single :=
  if negative then ⟨x.bits ||| 0x80000000⟩ else x

/-! ### Rounding a quotient -/

/-- `num / den` rounded to the nearest natural number, a half going to the even neighbour. -/
def roundHalfEven (num den : Nat) : Nat :=
  let q := num / den
  let r := num % den
  if 2 * r < den then q
  else if den < 2 * r then q + 1
  else if q % 2 = 0 then q else q + 1

/-- `num * 2 ^ e` and `den` as two naturals with the same quotient. -/
def scaleByPow2 (num den : Nat) (e : Int) : Nat × Nat :=
  match e with
  | .ofNat k => (num * Nat.pow 2 k, den)
  | .negSucc k => (num, den * Nat.pow 2 (k + 1))

/-- The greatest `e` with `2 ^ e ≤ num / den`, for positive `num` and `den`. -/
def floorLog2 (num den : Nat) : Int :=
  let guess : Int := (num.log2 : Int) - den.log2
  let (n, d) := scaleByPow2 num den (-guess)
  if n < d then guess - 1 else guess

/-- The single precision number nearest to `num / den`, a half going to the one with an even
mantissa; `none` if that is beyond the greatest finite number. -/
def ofRatio? (num den : Nat) : Option Single :=
  if num = 0 then some zero
  else
    let exponent := max (-149) (floorLog2 num den - 23)
    let (n, d) := scaleByPow2 num den (-exponent)
    let bits := (exponent + 149).toNat * 0x800000 + roundHalfEven n d
    if bits < 0x7F800000 then some ⟨.ofNat bits⟩ else none

end Single

end IntLang
