/-
  The most recent samples of a signed quantity, with their sum and the sum of
  their squares kept up to date.

  The sums are signed 64-bit numbers; a sample that takes one of them out of
  range is a fault (`checked64`).
-/
import AirLink.Fault

namespace AirLink

/-- A sum, as long as 64 bits hold it. -/
def checked64 (n : Int) : Except Fault Int :=
  if -0x8000000000000000 ≤ n ∧ n < 0x8000000000000000 then .ok n else .error .sumOverflow

/-- The last `capacity` samples. -/
structure Window (capacity : Nat) where
  /-- the samples; when there is no more room the oldest is replaced in its
      place -/
  samples : List Int32
  /-- the place of the oldest sample of a full window -/
  next : Nat
  sum : Int
  squareSum : Int
deriving DecidableEq

namespace Window

variable {capacity : Nat}

def empty : Window capacity := ⟨[], 0, 0, 0⟩

/-- A window, which needs room for a sample. -/
def ofCapacity (capacity : Nat) : Except Fault (Window capacity) :=
  if capacity = 0 then .error .emptyWindow else .ok empty

/-- The sample that the next one replaces. -/
def evicted? (w : Window capacity) : Option Int32 :=
  if w.samples.length < capacity then none else w.samples[w.next]?

/-- The sums without a sample. -/
def forget (w : Window capacity) (v : Int32) : Except Fault (Window capacity) := do
  let sum ← checked64 (w.sum - v.toInt)
  let squareSum ← checked64 (w.squareSum - v.toInt * v.toInt)
  return { w with sum, squareSum }

/-- The sums with a sample. -/
def count (w : Window capacity) (v : Int32) : Except Fault (Window capacity) := do
  let sum ← checked64 (w.sum + v.toInt)
  let squareSum ← checked64 (w.squareSum + v.toInt * v.toInt)
  return { w with sum, squareSum }

/-- The samples with a new one, in place of the oldest if there is no more
    room. -/
def place (w : Window capacity) (v : Int32) : Window capacity :=
  if w.samples.length < capacity then { w with samples := w.samples ++ [v] }
  else { w with samples := w.samples.set w.next v, next := (w.next + 1) % capacity }

/-- Adds a sample. -/
def add (w : Window capacity) (v : Int32) : Except Fault (Window capacity) := do
  let rest ← match w.evicted? with
    | some old => w.forget old
    | none => .ok w
  (rest.place v).count v

def size (w : Window capacity) : Nat := w.samples.length

/-- The mean of the samples, rounded towards zero; zero if there are
    none. -/
def mean (w : Window capacity) : Int := w.sum.tdiv w.size

/-- A sample of the smallest magnitude. -/
def best (w : Window capacity) : Option Int32 :=
  w.samples.foldl (fun best v => match best with
    | some b => if v.toInt.natAbs < b.toInt.natAbs then some v else some b
    | none => some v) none

/-- The standard deviation of the samples; zero if there are fewer than
    two. -/
def deviation (w : Window capacity) : Float :=
  if w.size < 2 then 0
  else
    let n := (Int64.ofNat w.size).toFloat
    let mean := (Int64.ofInt w.sum).toFloat / n
    let spread := (Int64.ofInt w.squareSum).toFloat - mean * mean * n
    ((if spread < 0 then 0 else spread) / (n - 1)).sqrt

end Window
end AirLink
