import IntLang.Single

/-!
# Writing a number with the fewest digits

A finite number is written with the fewest significant digits that read back as the same
number, and of those with the nearest ones; it is written positionally, however many zeros that
takes, never with an exponent.

The decimals that read back as `x` are an interval around `x` that reaches halfway to its two
neighbours. The ends belong to it when the mantissa is even, because halves are rounded to even.
Below a power of two the neighbour is only half as far away. All of it is measured in quarters
of the last binary place, so that every end is a natural number.
-/

namespace IntLang.Single

/-- The decimals that read back as a number, in units of `2 ^ exponent`. -/
structure Interval where
  /-- The lower end. -/
  low : Nat
  /-- The number itself. -/
  mid : Nat
  /-- The upper end. -/
  high : Nat
  /-- The power of two of the unit. -/
  exponent : Int
  /-- Whether the ends belong to the interval. -/
  closed : Bool

/-- The interval of a finite positive number. -/
def interval (x : Single) : Interval :=
  let m := x.mantissa
  { low := if x.fraction = 0 && 1 < x.exponentField then 4 * m - 1 else 4 * m - 2
    mid := 4 * m
    high := 4 * m + 2
    exponent := x.exponent - 2
    closed := m % 2 == 0 }

/-- `n` units of `2 ^ e`, measured in units of `10 ^ k`, as a fraction. -/
def inPlaces (n : Nat) (e k : Int) : Nat × Nat :=
  let num := n * Nat.pow 2 e.toNat * Nat.pow 10 (-k).toNat
  let den := Nat.pow 2 (-e).toNat * Nat.pow 10 k.toNat
  (num, den)

/-- Whether `d * 10 ^ k` lies in the interval. -/
def Interval.holds (i : Interval) (k : Int) (d : Nat) : Bool :=
  let (low, den) := inPlaces i.low i.exponent k
  let (high, _) := inPlaces i.high i.exponent k
  if i.closed then low ≤ d * den && d * den ≤ high
  else low < d * den && d * den < high

/-- The multiple of `10 ^ k` in the interval that is nearest to its middle, if there is one: one
of the two neighbours of the middle. Halfway between them, the even one. -/
def Interval.nearest? (i : Interval) (k : Int) : Option Nat :=
  let (mid, den) := inPlaces i.mid i.exponent k
  let below := mid / den
  let up := roundHalfEven mid den
  if i.holds k up then some up
  else if i.holds k below then some below
  else if i.holds k (below + 1) then some (below + 1)
  else none

/-- The greatest power of ten, from `10 ^ k` down over `fuel` places, with a multiple in the
interval, and that multiple. -/
def Interval.shortest (i : Interval) : Nat → Int → Nat × Int
  | 0, k => (roundHalfEven (inPlaces i.mid i.exponent k).1 (inPlaces i.mid i.exponent k).2, k)
  | fuel + 1, k =>
    match i.nearest? k with
    | some d => (d, k)
    | none => i.shortest fuel (k - 1)

/-- The digits of a finite positive number and the power of ten of the last one. The search
begins above the greatest finite number, and every number is a multiple of `10 ^ (-150)`. -/
def decimal (x : Single) : Nat × Int := (interval x).shortest 200 40

/-- `d * 10 ^ k` written positionally. -/
def positional (d : Nat) (k : Int) : List Char :=
  let digits := Nat.toDigits 10 d
  match k with
  | .ofNat zeros => digits ++ List.replicate zeros '0'
  | .negSucc p =>
    let places := p + 1
    let padded := List.replicate (places + 1 - digits.length) '0' ++ digits
    let split := padded.length - places
    padded.take split ++ '.' :: padded.drop split

/-- The text of a number. -/
def text (x : Single) : Text :=
  if x.isSpecial then
    if x.fraction ≠ 0 then "NaN" else if x.isNegative then "-Inf" else "+Inf"
  else
    let sign : Text := if x.isNegative then "-" else ""
    if x.mantissa = 0 then sign ++ "0"
    else
      let (d, k) := x.decimal
      sign ++ .ofChars (positional d k)

end IntLang.Single
