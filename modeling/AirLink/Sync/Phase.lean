/-
  The two phases of the clock negotiation, first to the second and then to
  the microsecond, and how far an end has got in it.
-/
namespace AirLink

/-- A phase of the negotiation. -/
inductive Phase where
  /-- to the second -/
  | broad
  /-- to the microsecond -/
  | fine
deriving DecidableEq, Repr

/-- How far an end has got. -/
inductive Progress where
  | waiting
  | broadStarted
  | broadAccepted
  | fineStarted
  | fineAccepted
deriving DecidableEq, Repr

/-- The phase that the next request belongs to, if there is one. -/
def Progress.phase? : Progress → Option Phase
  | waiting | broadStarted => some .broad
  | broadAccepted | fineStarted => some .fine
  | fineAccepted => none

/-- The name of a phase in reports. -/
def Phase.name : Phase → String
  | broad => "Broad"
  | fine => "Fine"

/-- The name of the progress in reports. -/
def Progress.name : Progress → String
  | waiting => "WaitingForStart"
  | broadStarted => "BroadStarted"
  | broadAccepted => "BroadAccepted"
  | fineStarted => "FineStarted"
  | fineAccepted => "FineAccepted"

end AirLink
