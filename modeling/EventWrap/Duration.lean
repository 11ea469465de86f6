/-!
# Durations

A span of time in nanoseconds, and its text in the largest unit that gives a whole part: all digits
of the fraction are written but for zeros at its end.
-/

namespace EventWrap

structure Duration where
  nanoseconds : Nat := 0
  deriving DecidableEq, Inhabited

namespace Duration

def milliseconds (d : Duration) : Nat := d.nanoseconds / 1000000

/-- A fraction of `places` digits after its point, without zeros at the end. -/
def fractionText (places fraction : Nat) : String :=
  let digits := (Nat.toDigits 10 (Nat.pow 10 places + fraction)).drop 1
  let kept := (digits.reverse.dropWhile (· = '0')).reverse
  if kept.isEmpty then "" else "." ++ String.ofList kept

/-- A number of nanoseconds in units of a power of ten of them. -/
def inUnits (places n : Nat) (unit : String) : String :=
  toString (n / Nat.pow 10 places) ++ fractionText places (n % Nat.pow 10 places) ++ unit

def toText (d : Duration) : String :=
  let n := d.nanoseconds
  if 1000000000 ≤ n then inUnits 9 n "s"
  else if 1000000 ≤ n then inUnits 6 n "ms"
  else if 1000 ≤ n then inUnits 3 n "µs"
  else inUnits 0 n "ns"

end Duration

end EventWrap
