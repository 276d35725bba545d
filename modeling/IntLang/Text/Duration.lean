import IntLang.Text.Decimal

/-!
# Durations

Spans of time in words. Below a second the unit is the largest one that fits, from there on hours
and minutes are split off; fractions have no zeros at their end.
-/

namespace IntLang.Text

/-- A number of the form `n / 10 ^ places`, without zeros at the end of its fraction. -/
def ofFraction (n places : Nat) : Text :=
  let unit := Nat.pow 10 places
  let fraction := (Text.ofNat (n % unit)).bytes
  let padded := List.replicate (places - fraction.length) 0x30 ++ fraction
  let kept : Text := ⟨(padded.reverse.dropWhile (· = 0x30)).reverse⟩
  if kept.isEmpty then ofNat (n / unit) else ofNat (n / unit) ++ "." ++ kept

/-- A number of nanoseconds as hours, minutes and seconds, or in a smaller unit. -/
def ofNanoseconds (n : Nat) : Text :=
  if n = 0 then "0s"
  else if n < 1000 then ofNat n ++ "ns"
  else if n < 1000000 then ofFraction n 3 ++ "µs"
  else if n < 1000000000 then ofFraction n 6 ++ "ms"
  else
    let minutes := n / 60000000000
    let seconds := ofFraction (n % 60000000000) 9 ++ "s"
    if minutes = 0 then seconds
    else if minutes < 60 then ofNat minutes ++ "m" ++ seconds
    else ofNat (minutes / 60) ++ "h" ++ ofNat (minutes % 60) ++ "m" ++ seconds

end IntLang.Text
