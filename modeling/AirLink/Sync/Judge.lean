/-
  The server's part of the clock negotiation: it judges the client's
  estimates by its own link time at the moment a request arrived.
-/
import AirLink.Clock.LinkTime
import AirLink.Sync.Phase

namespace AirLink

/-- How far an estimate is off, and whether that is close enough. -/
structure Verdict where
  error : Offset
  accepted : Bool
deriving DecidableEq

/-- The judge of a negotiation. -/
structure Judge where
  progress : Progress
  broadToleranceSeconds : UInt32
  fineToleranceMicros : UInt32
deriving DecidableEq

namespace Judge

def ofTolerances (broadSeconds fineMicros : UInt32) : Judge := ⟨.waiting, broadSeconds, fineMicros⟩

def reset (j : Judge) : Judge := { j with progress := .waiting }

def isSynced (j : Judge) : Bool := j.progress = .fineAccepted

/-- Whether an error is within a tolerance. -/
def within (error : Offset) (toleranceMicros : Nat) : Bool :=
  error.toMicros.natAbs ≤ toleranceMicros

/-- Fine estimates are judged from the first accepted broad one on. -/
def isBroadDone (j : Judge) : Bool := j.progress ≠ .waiting && j.progress ≠ .broadStarted

/-- Judges an estimate to the second.  Once fine estimates have been judged a
    late one changes nothing. -/
def onBroad (j : Judge) (estimate truth : LinkTime) : Verdict × Judge :=
  let error := estimate.errorTo truth
  let accepted := within error (j.broadToleranceSeconds.toNat * microsPerSecond)
  let progress := match j.progress with
    | .fineStarted => .fineStarted
    | .fineAccepted => .fineAccepted
    | _ => if accepted then .broadAccepted else .broadStarted
  (⟨error, accepted⟩, { j with progress })

/-- Judges an estimate to the microsecond. -/
def onFine (j : Judge) (estimate truth : LinkTime) : Verdict × Judge :=
  let error := estimate.errorTo truth
  let accepted := j.isBroadDone && within error j.fineToleranceMicros.toNat
  let progress :=
    if accepted then .fineAccepted
    else if j.isBroadDone then .fineStarted
    else j.progress
  (⟨error, accepted⟩, { j with progress })

/-- Judges an estimate of either phase. -/
def judge (j : Judge) (phase : Phase) (estimate truth : LinkTime) : Verdict × Judge :=
  match phase with
  | .broad => j.onBroad estimate truth
  | .fine => j.onFine estimate truth

end Judge
end AirLink
