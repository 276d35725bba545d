/-!
# Ranges of character codes

Unicode properties and case maps are tables over ranges of codes. A `CodeRange` is a run of
codes; a `CodeShift` is a run of codes, all of them or every second one, that move by one and
the same offset.
-/

namespace IntLang

/-- The codes from `first` to `last`, both included. -/
structure CodeRange where
  /-- The least code. -/
  first : Nat
  /-- The greatest code. -/
  last : Nat

/-- Whether a code lies in the range. -/
def CodeRange.contains (r : CodeRange) (code : Nat) : Bool := r.first ≤ code && code ≤ r.last

/-- The codes `first`, `first + step`, … up to `last`, each sent to itself plus `offset`. -/
structure CodeShift where
  /-- The least code that moves. -/
  first : Nat
  /-- The greatest code that moves. -/
  last : Nat
  /-- The distance from one code that moves to the next. -/
  step : Nat
  /-- How far each of them moves. -/
  offset : Int

/-- Whether a code is one of those that move. -/
def CodeShift.moves (s : CodeShift) (code : Nat) : Bool :=
  s.first ≤ code && code ≤ s.last && (code - s.first) % s.step == 0

/-- Where a table of shifts sends a character; one that no row moves stays. -/
def CodeShift.apply (table : List CodeShift) (c : Char) : Char :=
  match table.find? (·.moves c.toNat) with
  | some s => Char.ofNat (c.toNat + s.offset).toNat
  | none => c

end IntLang
