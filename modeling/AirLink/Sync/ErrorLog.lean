/-
  The clock errors that the server reports for the client's measurements, and
  what they say about the clock.

  The estimate is the mean of the recent errors, unless they spread too far:
  then it is the smallest of them, so that one outlier does not drag the
  clock along.  The quality falls from 255 to 0 with the average magnitude.
-/
import AirLink.Sync.Window

namespace AirLink

/-- Errors that the estimate is taken from. -/
def errorWindow : Nat := 4

/-- Errors that an estimate needs. -/
def minErrors : Nat := 3

/-- The recent clock errors. -/
structure ErrorLog where
  window : Window errorWindow
  /-- the average magnitude of the errors, of which each new one makes up a
      quarter -/
  average : Option Nat
  deviationThreshold : UInt32
  /-- the error of a clock of no quality, at least one -/
  reference : Nat
  reference_pos : 0 < reference

namespace ErrorLog

def ofLimits (deviationThreshold reference : UInt32) : ErrorLog :=
  ⟨.empty, none, deviationThreshold, max reference.toNat 1, by omega⟩

/-- The average with another magnitude. -/
def nextAverage (average : Option Nat) (magnitude : Nat) : Nat :=
  match average with
  | none => magnitude
  | some a => (a * 3 + magnitude) / 4

/-- Takes note of an error. -/
def add (l : ErrorLog) (error : Int32) : Except Fault ErrorLog := do
  let window ← l.window.add error
  return { l with window, average := some (nextAverage l.average error.toInt.natAbs) }

/-- The error to correct, if there are enough of them to tell. -/
def estimate (l : ErrorLog) : Option Int :=
  if l.window.size < minErrors then none
  else if l.window.deviation > l.deviationThreshold.toFloat then
    l.window.best.map Int32.toInt
  else some l.window.mean

/-- 255 for a perfect clock, 0 from the reference error on, and before there
    is an error. -/
def quality (l : ErrorLog) : Nat :=
  match l.average with
  | none => 0
  | some a => if l.reference ≤ a then 0 else 255 - a * 255 / l.reference

/-- Starts a new window after a correction; the average stays. -/
def clearSamples (l : ErrorLog) : ErrorLog := { l with window := .empty }

def reset (l : ErrorLog) : ErrorLog := { l with window := .empty, average := none }

end ErrorLog
end AirLink
