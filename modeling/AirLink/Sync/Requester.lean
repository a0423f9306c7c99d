/-
  The client's part of the clock negotiation: it sends estimates of the
  server's time until one is accepted in either phase, and applies the
  errors it is told.  A reply counts only if it answers the latest request,
  so that no error is applied twice.
-/
import AirLink.Clock.LinkTime
import AirLink.Sync.Phase

namespace AirLink

/-- A request for the judgement of an estimate. -/
structure SyncRequest where
  phase : Phase
  sequence : UInt8
deriving DecidableEq

/-- The requester of a negotiation. -/
structure Requester where
  progress : Progress
  /-- the time after which an unanswered request is repeated -/
  retryPeriod : Nat
  /-- the number of the latest request -/
  sequence : UInt8
  /-- when the latest request was sent, while it is unanswered -/
  awaitingSince : Option Nat
  broadRequests : Nat
  fineRequests : Nat
deriving DecidableEq

namespace Requester

def ofRetryPeriod (micros : Nat) : Requester := ⟨.waiting, micros, 0, none, 0, 0⟩

/-- Starts over; the numbering of the requests goes on. -/
def reset (r : Requester) : Requester :=
  { r with progress := .waiting, awaitingSince := none, broadRequests := 0, fineRequests := 0 }

def isSynced (r : Requester) : Bool := r.progress = .fineAccepted

/-- Whether a request is out that may still be answered. -/
def isWaiting (r : Requester) (now : Nat) : Bool :=
  match r.awaitingSince with
  | some since => now - since < r.retryPeriod
  | none => false

/-- The request to send now, if any. -/
def nextRequest (r : Requester) (now : Nat) : Option SyncRequest :=
  if r.isWaiting now then none
  else r.progress.phase?.map fun phase => ⟨phase, r.sequence + 1⟩

/-- The time until there may be a request to send. -/
def retryDelay (r : Requester) (now : Nat) : Option Nat :=
  if r.isSynced then none
  else match r.awaitingSince with
    | some since => some (since + r.retryPeriod - now)
    | none => some 0

/-- Takes note of a request that was sent. -/
def onSent (r : Requester) (q : SyncRequest) (now : Nat) : Requester :=
  let r := { r with sequence := q.sequence, awaitingSince := some now }
  match q.phase with
  | .broad => { r with
      broadRequests := r.broadRequests + 1
      progress := if r.progress = .waiting then .broadStarted else r.progress }
  | .fine => { r with
      fineRequests := r.fineRequests + 1
      progress := if r.progress = .broadAccepted then .fineStarted else r.progress }

/-- The progress in which a reply of a phase counts. -/
def started : Phase → Progress
  | .broad => .broadStarted
  | .fine => .fineStarted

/-- The progress after an accepted reply of a phase. -/
def concluded : Phase → Progress
  | .broad => .broadAccepted
  | .fine => .fineAccepted

/-- Whether a reply answers the latest request. -/
def isAnswer (r : Requester) (phase : Phase) (sequence : UInt8) : Bool :=
  r.awaitingSince.isSome && sequence = r.sequence && r.progress = started phase

/-- Takes a reply.  Yields the microseconds to correct the clock by, if it
    answers the latest request. -/
def onReply (r : Requester) (phase : Phase) (sequence : UInt8) (error : Offset) (accepted : Bool) :
    Option Int × Requester :=
  if r.isAnswer phase sequence then
    (some (-error.toMicros),
      { r with
        awaitingSince := none
        progress := if accepted then concluded phase else r.progress })
  else (none, r)

end Requester
end AirLink
