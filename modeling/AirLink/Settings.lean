/-
  The settings of a link and what they have to satisfy.

  `Settings.check` names the first rule that is broken; the times that the
  link runs on are whole microseconds, derived from the settings and limited
  to what 32 bits hold.
-/
import AirLink.Clock.LinkTime
import AirLink.Duration

namespace AirLink

/-- The settings of a link.  Both ends use the same. -/
structure Settings where
  /-- one exchange: the server sends in the first half, the client in the
      second -/
  duplexPeriod : Duration
  /-- the channels in use before there is a link -/
  advertisingChannels : List UInt8
  /-- the channels of the transceiver are those below this number -/
  channelCount : UInt8
  /-- duplex periods on one channel of the link -/
  hopPeriods : UInt32
  /-- duplex periods without a packet after which a link is lost -/
  timeoutPeriods : UInt32
  pairingTimeout : Duration
  /-- the time from the switch to linking until there is a link -/
  linkingTimeout : Duration
  /-- how long the server advertises one session -/
  sessionRotation : Duration
  /-- how long the client searches one channel -/
  searchDwell : Duration
  /-- how long a switch of stages is announced -/
  switchDuration : Duration
  /-- duplex periods after which an unanswered clock request is repeated -/
  syncRetryPeriods : UInt32
  broadToleranceSeconds : UInt32
  fineToleranceMicros : UInt32
  tuneTolerancePpm : UInt32
  /-- the time between two measurements of the clock error -/
  tunePeriod : Duration
  /-- clock errors that spread more than this are not averaged -/
  deviationThreshold : UInt32
  /-- the clock error of a clock of no quality -/
  qualityReference : UInt32
  reportPeriod : Duration
  /-- a packet this close to a millisecond boundary is tried on both sides -/
  decodeTolerance : UInt32
  /-- how far a packet counter may run ahead -/
  counterTolerance : UInt16
  calibrationRounds : UInt32
deriving DecidableEq

/-- Packets are bound to the millisecond they are sent in. -/
def tokenMicros : Nat := 1000

namespace Settings

/-- The settings a link starts out with. -/
def standard : Settings where
  duplexPeriod := .ofMillis 10
  advertisingChannels := [3, 37, 71]
  channelCount := 80
  hopPeriods := 1
  timeoutPeriods := 100
  pairingTimeout := .ofSeconds 1
  linkingTimeout := .ofSeconds 2
  sessionRotation := .ofMillis 500
  searchDwell := .ofSeconds 1
  switchDuration := .ofMillis 40
  syncRetryPeriods := 4
  broadToleranceSeconds := 2
  fineToleranceMicros := 25
  tuneTolerancePpm := 25
  tunePeriod := .ofSeconds 1
  deviationThreshold := 50
  qualityReference := 200
  reportPeriod := .ofMillis 250
  decodeTolerance := 100
  counterTolerance := 32767
  calibrationRounds := 100

/-- Fast settings for simulations: short periods and a single advertising
    channel. -/
def fast : Settings :=
  { standard with
    duplexPeriod := .ofMillis 2
    advertisingChannels := [7]
    channelCount := 40
    switchDuration := .ofMillis 8
    tunePeriod := .ofMillis 100
    reportPeriod := .ofMillis 50
    calibrationRounds := 10 }

/-! ## Times in microseconds -/

def duplexMicros (s : Settings) : Nat := s.duplexPeriod.toMicros

/-- The time without a packet after which a link is lost. -/
def timeout (s : Settings) : Duration := s.duplexPeriod.times s.timeoutPeriods.toNat

def timeoutMicros (s : Settings) : Nat := s.timeout.toMicros

/-- A number of duplex periods, at most what 32 bits hold. -/
def duplexTimes (s : Settings) (n : UInt32) : Nat := min (s.duplexMicros * n.toNat) 0xFFFFFFFF

def hopMicros (s : Settings) : Nat := s.duplexTimes s.hopPeriods

def syncRetryMicros (s : Settings) : Nat := s.duplexTimes s.syncRetryPeriods

/-! ## Rules -/

/-- The rule that settings break. -/
inductive Refusal where
  | duplexPeriod (was : Duration)
  | noChannels
  | noAdvertisingChannels
  | advertisingChannel (channel count : UInt8)
  | hopPeriod
  | linkTimeout
  | switchDuration (was : Duration)
  | linkingTimeout
  | reportPeriod (was timeout : Duration)
  | syncRetry
  | counterTolerance
  | decodeTolerance
  | qualityReference
  | calibrationRounds
deriving DecidableEq

def Refusal.message : Refusal → String
  | duplexPeriod d => s!"duplex period must be between 1ms and 1s, was {d.toText}"
  | noChannels => "at least one channel is required"
  | noAdvertisingChannels => "at least one advertising channel is required"
  | advertisingChannel ch n =>
    s!"advertising channel {ch.toNat} is outside the channel range 0..{n.toNat}"
  | hopPeriod => "hop period must span at least one duplex period"
  | linkTimeout => "link timeout must span at least four duplex periods"
  | switchDuration d =>
    s!"transition duration {d.toText} must cover at least three duplex periods"
  | linkingTimeout => "linking timeout must leave room for both timed transitions"
  | reportPeriod d timeout =>
    s!"report period {d.toText} is too long for a link timeout of {timeout.toText}"
  | syncRetry => "clock sync retry period must be at least one duplex period"
  | counterTolerance => "receive counter tolerance must be in 1..=32767"
  | decodeTolerance => "decode time tolerance must be less than half a sub-token period"
  | qualityReference => "clock quality reference must be positive"
  | calibrationRounds => "calibration needs at least one round"

instance : ToString Refusal := ⟨Refusal.message⟩

/-- The first broken rule, if any. -/
def refusal? (s : Settings) : Option Refusal :=
  if s.duplexMicros < 1000 ∨ 1000000 < s.duplexMicros then some (.duplexPeriod s.duplexPeriod)
  else if s.channelCount = 0 then some .noChannels
  else if s.advertisingChannels = [] then some .noAdvertisingChannels
  else if let some ch := s.advertisingChannels.find? (s.channelCount ≤ ·) then
    some (.advertisingChannel ch s.channelCount)
  else if s.hopPeriods = 0 then some .hopPeriod
  else if s.timeoutPeriods < 4 then some .linkTimeout
  else if s.switchDuration < s.duplexPeriod.times 3 then some (.switchDuration s.switchDuration)
  else if s.linkingTimeout ≤ s.switchDuration.times 2 then some .linkingTimeout
  else if s.timeout ≤ s.reportPeriod.times 2 then some (.reportPeriod s.reportPeriod s.timeout)
  else if s.syncRetryPeriods = 0 then some .syncRetry
  else if s.counterTolerance = 0 ∨ 32767 < s.counterTolerance then some .counterTolerance
  else if tokenMicros / 2 ≤ s.decodeTolerance.toNat then some .decodeTolerance
  else if s.qualityReference = 0 then some .qualityReference
  else if s.calibrationRounds = 0 then some .calibrationRounds
  else none

/-- Accepts settings that break no rule. -/
def check (s : Settings) : Except Refusal Unit :=
  match s.refusal? with
  | some r => .error r
  | none => .ok ()

end Settings
end AirLink
