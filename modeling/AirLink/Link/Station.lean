/-
  The part of an endpoint that both roles share: radio, clock, session, timing
  and counters.

  The state is a value and every operation a function on it; what is done to
  the surroundings is collected in `outbox`.  A transmission is planned first
  (`Station.plan`) and then carried out (`Station.trySend`), so that one that
  does not happen leaves no trace but the radio's refusal.
-/
import AirLink.Entropy
import AirLink.Settings
import AirLink.Clock.Basic
import AirLink.Message.Reader
import AirLink.Message.Writer
import AirLink.Session.Basic
import AirLink.Link.Duplex
import AirLink.Link.Effect
import AirLink.Link.Hop
import AirLink.Link.ReplayWindow
import AirLink.Link.Reporting
import AirLink.Link.SendQueue
import AirLink.Link.Status
import AirLink.Link.Timing

namespace AirLink

/-- The keys that a packet is sealed with. -/
inductive Sealing where
  /-- the keys of zeros that everybody has -/
  | unlinked
  /-- the keys of the session -/
  | session
deriving DecidableEq, Repr

/-- The arrival of a packet. -/
structure Arrival where
  /-- monotonic time of the first bit -/
  micros : Nat
  /-- link time of the first bit -/
  time : LinkTime
  size : Nat
deriving DecidableEq

/-- The shared part of an endpoint. -/
structure Station where
  settings : Settings
  radio : Radio
  clock : Clock
  session : Session
  entropy : Entropy
  tally : Tally
  /-- known once the endpoint is set up -/
  timing : Option Timing
  stage : Stage
  stageStarted : Nat
  /-- the stage in the status -/
  statusStage : Stage
  /-- monotonic time at which the link was established, in the status -/
  linkedSince : Option Nat
  /-- the number of the next packet -/
  nextCounter : UInt16
  replay : ReplayWindow
  /-- from a transmission until the radio reports its end -/
  transmitting : Bool
  /-- the channel the radio listens on -/
  listening : Option UInt8
  /-- the channel in use before the link -/
  handshakeChannel : UInt8
  pairingDuplex : Duplex
  linkedDuplex : Duplex
  /-- the period in which the last packet was sent -/
  lastSlot : Option Int
  hop : Option Hop
  /-- monotonic time of the partner's last packet -/
  lastHeard : Nat
  queue : SendQueue
  reporting : Reporting
  linkedReceived : Nat
  linkedLost : Nat
  /-- what was done to the surroundings -/
  outbox : List Effect

/-- The state after a tick of a role, and the delay until the next tick. -/
structure Turn (ρ : Type) where
  role : ρ
  station : Station
  delay : Nat

namespace Station

/-- A station that is off. -/
def create (settings : Settings) (radio : Radio) (session : Session) (source : Source)
    (entropy : Entropy) : Station where
  settings := settings
  radio := radio
  clock := .ofSource source settings.tuneTolerancePpm
  session := session
  entropy := entropy
  tally := .zero
  timing := none
  stage := .disabled
  stageStarted := 0
  statusStage := .disabled
  linkedSince := none
  nextCounter := 0
  replay := .ofTolerance settings.counterTolerance
  transmitting := false
  listening := none
  handshakeChannel := settings.advertisingChannels.headD 0
  pairingDuplex := .ofPeriod settings.duplexMicros 0
  linkedDuplex := .ofPeriod settings.duplexMicros 0
  lastSlot := none
  hop := none
  lastHeard := 0
  queue := .ofPeriod settings.duplexMicros
  reporting := .ofPeriod settings.reportPeriod.toMicros
  linkedReceived := 0
  linkedLost := 0
  outbox := []

def role (s : Station) : Role := s.session.role

/-- Does something to the surroundings. -/
def emit (s : Station) (e : Effect) : Station := { s with outbox := s.outbox ++ [e] }

/-- Changes counts. -/
def count (s : Station) (f : Tally → Tally) : Station := { s with tally := f s.tally }

/-- Counts a packet that is of no use. -/
def reject (s : Station) : Station := s.count fun t => { t with rejected := t.rejected + 1 }

/-- Enters a stage: notes it in the status, and tells the application. -/
def enter (s : Station) (stage : Stage) (now : Nat) : Station :=
  emit
    { s with
      stage
      stageStarted := now
      statusStage := stage
      linkedSince := if stage = .linked then some now else none }
    (.stage stage)

/-- Enters a stage, unless it is in this stage. -/
def setStage (s : Station) (stage : Stage) (now : Nat) : Station :=
  if stage = s.stage then s else s.enter stage now

/-- The time since the stage was entered. -/
def stageAge (s : Station) (now : Nat) : Nat := now - s.stageStarted

def drawWord (s : Station) : UInt32 × Station :=
  (s.entropy.next.1, { s with entropy := s.entropy.next.2 })

def drawHalfWord (s : Station) : UInt16 × Station :=
  (s.entropy.next16.1, { s with entropy := s.entropy.next16.2 })

/-- Clears what belongs to a link, at the start of the search for a
    partner. -/
def resetLink (s : Station) (now : Nat) : Station :=
  let (counter, s) := s.drawHalfWord
  { s with
    nextCounter := counter
    replay := s.replay.reset
    lastSlot := none
    hop := none
    queue := s.queue.cancel
    reporting := s.reporting.reset now
    lastHeard := now }

/-- Sets the channel in use before the link. -/
def tuneTo (s : Station) (channel : UInt8) : Station := { s with handshakeChannel := channel }

/-- Starts a duplex phase of one's own. -/
def startDuplex (s : Station) (now : Nat) : Station :=
  { s with pairingDuplex := s.pairingDuplex.setOrigin now, lastSlot := none }

/-! ## Times of a packet -/

/-- The time from a decision to send until the first bit is on air. -/
def firstBitDelay (s : Station) (size : Nat) : Nat :=
  (s.timing.getD .instant).micros size + s.radio.timeToAir size

/-- The time from a decision to send until the packet is over. -/
def airtime (s : Station) (size : Nat) : Nat := s.firstBitDelay size + s.radio.timeInAir size

/-- The size of the packet that carries a message. -/
def packetSize (m : Message) : Nat := headerSize + m.write.length

/-- When the first bit of a message would be on air. -/
def firstBit (s : Station) (now : Nat) (m : Message) : Nat := now + s.firstBitDelay (packetSize m)

/-- Microseconds of link time. -/
def linkMicros (s : Station) (now : Nat) : Nat := (s.clock.linkTimeAt now).toMicros

/-- The periods that count in this stage. -/
def duplex (s : Station) : Duplex := if s.stage = .linked then s.linkedDuplex else s.pairingDuplex

/-- The time on the timeline of these periods. -/
def duplexTime (s : Station) (now : Nat) : Nat := if s.stage = .linked then s.linkMicros now else now

/-- The time until the next own half. -/
def slotDelay (s : Station) (now : Nat) : Nat := s.duplex.nextOwnHalf (s.duplexTime now)

/-- Lets the own half follow the partner's, which started with the packet
    that arrived. -/
def alignTo (s : Station) (a : Arrival) : Station :=
  let start := a.micros - s.firstBitDelay a.size
  { s with pairingDuplex := s.pairingDuplex.setOrigin (start + s.pairingDuplex.half) }

/-! ## Receiving -/

/-- The channel to listen on.  Towards the end of the own half of a link it
    is the one of the partner's next half. -/
def receiveChannel (s : Station) (now : Nat) : UInt8 :=
  match s.hop with
  | some hop =>
    if s.stage = .linked then
      let t := s.linkMicros now
      if s.linkedDuplex.isOwnHalf t then hop.channelAt (t + s.linkedDuplex.period / 8)
      else hop.channelAt t
    else s.handshakeChannel
  | none => s.handshakeChannel

/-- Listens, unless it does already or is sending. -/
def listen (s : Station) (now : Nat) : Station :=
  if s.transmitting then s
  else
    let channel := s.receiveChannel now
    if s.listening = some channel then s
    else { s with listening := some channel }.emit (.listen channel)

/-- Opens received bytes with the keys that may be in use. -/
def decode (s : Station) (data : Bytes) (time : LinkTime) : Option (Sealing × Packet) :=
  if s.stage = .linked then
    match s.session.codec with
    | some codec =>
      (codec.decodeNear data time s.settings.decodeTolerance.toNat).toOption.map (.session, ·)
    | none => none
  else
    match s.session.codec.bind fun codec => (codec.decode data .zero).toOption with
    | some p => some (.session, p)
    | none => ((Codec.unlinked s.role).decode data .zero).toOption.map (.unlinked, ·)

/-! ## Sending -/

/-- A packet that can be sent. -/
structure Transmission where
  frame : Frame
  channel : UInt8
  slot : Int

/-- The link time that a packet is bound to, and the channel it goes out on.
    Before the link it is bound to none. -/
def binding (s : Station) (firstBit : Nat) : LinkTime × UInt8 :=
  match s.hop with
  | some hop =>
    if s.stage = .linked then
      let time := s.clock.linkTimeAt firstBit
      (time, hop.channelAt time.toMicros)
    else (.zero, s.handshakeChannel)
  | none => (.zero, s.handshakeChannel)

/-- The codec of a kind of keys, if there are such keys. -/
def codec? (s : Station) : Sealing → Option Codec
  | .unlinked => some (.unlinked s.role)
  | .session => s.session.codec

/-- Whether a packet of the given size may go out: nothing was sent in this
    period, the rest of the own half is long enough, and the radio is free. -/
def mayPlan (s : Station) (m : Moment) (size now : Nat) : Bool :=
  s.lastSlot ≠ some (s.duplex.slot (s.duplexTime now))
    && s.duplex.canSend (s.duplexTime now) (s.airtime size)
    && !s.transmitting && m.available

/-- The transmission of a packet, if it can be sent now. -/
def plan (s : Station) (m : Moment) (kind : Sealing) (port : UInt8) (payload : Bytes) (now : Nat) :
    Option Transmission :=
  let size := headerSize + payload.length
  if s.mayPlan m size now then
    let (time, channel) := s.binding (now + s.firstBitDelay size)
    match s.codec? kind with
    | some codec =>
      match codec.encode ⟨s.nextCounter, port, payload⟩ time with
      | .ok frame => some ⟨frame, channel, s.duplex.slot (s.duplexTime now)⟩
      | .error _ => none
    | none => none
  else none

/-- The state after the radio has taken a packet. -/
def sent (s : Station) (t : Transmission) (now : Nat) : Station :=
  { s with
    nextCounter := s.nextCounter + 1
    transmitting := true
    listening := none
    lastSlot := some t.slot
    tally := { s.tally with sent := s.tally.sent + 1 }
    queue := s.queue.onSent now }

/-- Sends a packet, if it can be sent now and the radio takes it. -/
def trySend (s : Station) (m : Moment) (kind : Sealing) (port : UInt8) (payload : Bytes)
    (now : Nat) : Bool × Station :=
  match s.plan m kind port payload now with
  | none => (false, s)
  | some t =>
    if m.accepts then (true, (s.emit (.send t.channel t.frame.toBytes)).sent t now)
    else (false, s.emit (.refused t.channel t.frame.toBytes))

/-- The keys that a message is sealed with. -/
def sealingOf : Message → Sealing
  | .pairing _ => .unlinked
  | .handshake _ | .upkeep _ => .session

/-- Sends a message, if it can be sent now and the radio takes it. -/
def trySendMessage (s : Station) (m : Moment) (message : Message) (now : Nat) : Bool × Station :=
  s.trySend m (sealingOf message) linkPort message.write now

/-! ## The link -/

/-- Enters the link, if the session has a hop seed.  The own halves start at
    the given link time. -/
def enterLinked (s : Station) (now ownHalf : Nat) : Option Station :=
  s.session.hopSeed.map fun seed =>
    setStage
      { s with
        hop := some (.ofSeed seed s.settings.hopMicros s.settings.channelCount)
        linkedDuplex := .ofPeriod s.settings.duplexMicros ownHalf
        lastSlot := none
        listening := none
        lastHeard := now
        reporting := s.reporting.reset now
        linkedReceived := 0
        linkedLost := 0 }
      .linked now

/-- When the link counts as lost, unless a packet arrives. -/
def timeoutAt (s : Station) : Nat := s.lastHeard + s.settings.timeoutMicros

/-- The signal strength that a report gives before there is one. -/
def noSignal : Int8 := -128

/-- The report that is due, if any. -/
def report? (s : Station) (now : Nat) : Option Report :=
  if s.reporting.isDue now then
    some (s.reporting.build now (s.tally.lastRssi.getD noSignal) (s.replay.last.getD 0))
  else none

/-- Sends what is most urgent: a control message, else a due report, else the
    user packet that is released.  Yields whether the control message went
    out. -/
def linkedSend (s : Station) (m : Moment) (now : Nat) (control : Option UpkeepMessage) :
    Bool × Station :=
  match control with
  | some message => s.trySendMessage m (.upkeep message) now
  | none =>
    match s.report? now with
    | some report =>
      let (ok, s) := s.trySendMessage m (.upkeep (.report report)) now
      (false, if ok then { s with reporting := s.reporting.onSent now } else s)
    | none =>
      match s.queue.released now with
      | some p =>
        let (ok, s) := s.trySend m .session p.port p.payload now
        (false, if ok then { s with queue := s.queue.complete now } else s)
      | none => (false, s)

/-- The delay until the receiver should move on to the next channel, an
    eighth of a period ahead if there is time for it. -/
def hopDelay (s : Station) (hop : Hop) (t : Nat) : Nat :=
  let eighth := s.linkedDuplex.period / 8
  let untilHop := hop.untilNext t
  if eighth < untilHop then untilHop - eighth else untilHop

/-- The delay until something is to be done on the link. -/
def linkedDelay (s : Station) (now : Nat) : Nat :=
  let t := s.linkMicros now
  let own := s.linkedDuplex.nextOwnHalf t
  let own := match s.hop with
    | some hop => min own (s.hopDelay hop t)
    | none => own
  let own := if s.reporting.isDue now then own else min own (s.reporting.delay now)
  let own := match s.queue.releaseDelay now with
    | some release => if 0 < release then min own release else own
    | none => own
  min own (max (s.timeoutAt - now) 1)

/-! ## Status -/

/-- The share of the partner's packets that arrived. -/
def receiveQuality (s : Station) : Nat :=
  s.linkedReceived * 255 / (s.linkedReceived + s.linkedLost)

def status (s : Station) : Status where
  stage := s.statusStage
  role := s.role
  linkedSince := s.linkedSince
  tally := s.tally
  partnerRssi := s.reporting.partnerRssi
  receiveQuality := s.receiveQuality
  tune := s.clock.tune

end Station
end AirLink
