/-
  Spans of time in whole nanoseconds, as they are configured, and their
  textual form: the largest unit of which the span holds at least one, with
  the fraction as short as it can be.
-/
namespace AirLink

/-- A span of time. -/
structure Duration where
  nanos : Nat
deriving DecidableEq, Repr

namespace Duration

def ofMillis (n : Nat) : Duration := ⟨n * 1000000⟩

def ofSeconds (n : Nat) : Duration := ⟨n * 1000000000⟩

/-- The span a number of times over. -/
def times (d : Duration) (n : Nat) : Duration := ⟨d.nanos * n⟩

instance : LT Duration := ⟨fun a b => a.nanos < b.nanos⟩

instance : LE Duration := ⟨fun a b => a.nanos ≤ b.nanos⟩

instance (a b : Duration) : Decidable (a < b) := inferInstanceAs (Decidable (a.nanos < b.nanos))

instance (a b : Duration) : Decidable (a ≤ b) := inferInstanceAs (Decidable (a.nanos ≤ b.nanos))

/-- Whole microseconds, at most what 32 bits hold. -/
def toMicros (d : Duration) : Nat := min (d.nanos / 1000) 0xFFFFFFFF

/-- The digits of a fraction with the given number of places, without the
    zeros at its end. -/
def fractionDigits (places n : Nat) : String :=
  let digits := toString n
  let padded := List.replicate (places - digits.length) '0' ++ digits.toList
  String.ofList (padded.reverse.dropWhile (· == '0')).reverse

/-- A number of units, `10 ^ places` of which make one. -/
def unitText (n places : Nat) (unit : String) : String :=
  let fraction := fractionDigits places (n % Nat.pow 10 places)
  toString (n / Nat.pow 10 places) ++ (if fraction.isEmpty then "" else "." ++ fraction) ++ unit

def toText (d : Duration) : String :=
  if 1000000000 ≤ d.nanos then unitText d.nanos 9 "s"
  else if 1000000 ≤ d.nanos then unitText d.nanos 6 "ms"
  else if 1000 ≤ d.nanos then unitText d.nanos 3 "µs"
  else unitText d.nanos 0 "ns"

end Duration
end AirLink
