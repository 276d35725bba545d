import IntLang.Text

/-!
# Integers as program text writes them

A sign, then decimal digits, or digits behind one of the marks `0x`, `0o`, `0b`, or octal digits
behind a zero. Between two digits, and behind a mark, one underscore may stand. The number has to
fit in 64 bits.

The digits are read from the left, and the first thing wrong with them is what is reported: a
number that has become too large is too large, whatever follows.
-/

namespace IntLang.CommandLine

/-- What is wrong with an integer. -/
inductive IntegerError where
  | malformed
  | outOfRange
deriving DecidableEq

/-- A letter in lower case. -/
def lowerByte (b : UInt8) : UInt8 := b ||| 0x20

/-- The value of a digit in any base up to 36. -/
def digit? (b : UInt8) : Option Nat :=
  if 0x30 ≤ b && b ≤ 0x39 then some (b.toNat % 16)
  else if 0x61 ≤ lowerByte b && lowerByte b ≤ 0x7A then some (b.toNat % 32 + 9)
  else none

/-- The base of an unsigned number, and its digits. A mark counts only with a digit behind it;
otherwise a zero in front means octal. -/
def splitBase : List UInt8 → Nat × List UInt8
  | 0x30 :: mark :: d :: rest =>
    if lowerByte mark = 0x62 then (2, d :: rest)
    else if lowerByte mark = 0x6F then (8, d :: rest)
    else if lowerByte mark = 0x78 then (16, d :: rest)
    else (8, mark :: d :: rest)
  | 0x30 :: rest => (8, rest)
  | bytes => (10, bytes)

/-- The number of some digits, `n` being read already. Underscores are passed over. -/
def readDigits (base : Nat) : Nat → List UInt8 → Except IntegerError Nat
  | n, [] => .ok n
  | n, b :: rest =>
    if b = 0x5F then readDigits base n rest
    else match digit? b with
      | none => .error .malformed
      | some d =>
        if base ≤ d then .error .malformed
        else if 0x10000000000000000 ≤ n * base + d then .error .outOfRange
        else readDigits base (n * base + d) rest

/-- What was seen last while underscores are checked. -/
inductive Seen where
  | start
  | digit
  | underscore
  | other
deriving DecidableEq

/-- Whether each underscore stands behind a digit and in front of one. -/
def underscoresFit (hex : Bool) : Seen → List UInt8 → Bool
  | seen, [] => seen != .underscore
  | seen, b :: rest =>
    if (0x30 ≤ b && b ≤ 0x39) || (hex && 0x61 ≤ lowerByte b && lowerByte b ≤ 0x66) then
      underscoresFit hex .digit rest
    else if b = 0x5F then seen == .digit && underscoresFit hex .underscore rest
    else seen != .underscore && underscoresFit hex .other rest

/-- Whether the underscores of an unsigned number are in their places; a mark counts as a
digit. -/
def underscoresOk : List UInt8 → Bool
  | 0x30 :: mark :: rest =>
    if lowerByte mark = 0x78 then underscoresFit true .digit rest
    else if lowerByte mark = 0x62 || lowerByte mark = 0x6F then underscoresFit false .digit rest
    else underscoresFit false .start (0x30 :: mark :: rest)
  | bytes => underscoresFit false .start bytes

/-- An unsigned number. -/
def readUnsigned (bytes : List UInt8) : Except IntegerError Nat := do
  if bytes.isEmpty then .error .malformed
  let (base, digits) := splitBase bytes
  let n ← readDigits base 0 digits
  if bytes.contains 0x5F && !underscoresOk bytes then .error .malformed else .ok n

/-- The integer of 64 bits that a text writes. -/
def readInteger (t : Text) : Except IntegerError Int64 := do
  let (negative, unsigned) := match t.bytes with
    | 0x2B :: rest => (false, rest)
    | 0x2D :: rest => (true, rest)
    | bytes => (false, bytes)
  let n ← readUnsigned unsigned
  if negative then
    if 0x8000000000000000 < n then .error .outOfRange else .ok (.ofInt (-(n : Int)))
  else if 0x8000000000000000 ≤ n then .error .outOfRange else .ok (.ofNat n)

end IntLang.CommandLine
