/-
  One end of a link.

  The host sets an endpoint up, starts it, and from then on calls
  `Endpoint.tick` after the delay that the last tick asked for, and passes on
  what the radio reports: `onReceive`, `onBroken`, `onSent`.  The application
  asks for packets to be sent with `request`.  Each operation happens at a
  `Moment` and leaves what it did to the surroundings in the outbox, which
  `Endpoint.flush` empties.
-/
import AirLink.Link.Client
import AirLink.Link.Server

namespace AirLink

/-- The part that depends on the role. -/
inductive RoleState where
  | server (v : Server)
  | client (v : Client)

/-- The state of a role at the start. -/
def RoleState.create (settings : Settings) : Role → RoleState
  | .server => .server (.create settings)
  | .client => .client (.create settings)

/-- One end of a link. -/
structure Endpoint where
  station : Station
  role : RoleState

/-- Why an endpoint is not set up or started. -/
inductive EndpointRefusal where
  | settings (r : Settings.Refusal)
  | source (r : Source.Refusal)
  | timing (r : TimingRefusal)
  /-- the largest packet does not fit into half a period -/
  | budget (needed half : Nat)
  | notSetUp
  | radio
deriving DecidableEq

def EndpointRefusal.message : EndpointRefusal → String
  | settings r => r.message
  | source r => r.message
  | timing r => r.message
  | budget n h =>
    s!"sending a maximum size packet takes {n}us, which exceeds half a duplex period ({h}us)"
  | notSetUp => "link engine must be set up before it is started"
  | radio => "radio start failed"

instance : ToString EndpointRefusal := ⟨EndpointRefusal.message⟩

namespace Endpoint

/-- An endpoint that is off; the session tells its role. -/
def create (settings : Settings) (radio : Radio) (session : Session) (source : Source)
    (entropy : Entropy) : Endpoint :=
  ⟨.create settings radio session source entropy, .create settings session.role⟩

/-- What was done to the surroundings since the last time. -/
def flush (e : Endpoint) : List Effect × Endpoint :=
  (e.station.outbox, { e with station := { e.station with outbox := [] } })

def stage (e : Endpoint) : Stage := e.station.stage

def status (e : Endpoint) : Status := e.station.status

/-- Changes the clock. -/
def adjustClock (e : Endpoint) (f : Clock → Clock) : Endpoint :=
  { e with station := { e.station with clock := f e.station.clock } }

/-! ## Setting up -/

/-- Starts the clock's source, unless it runs. -/
def startClock (s : Station) : Station :=
  let (started, clock) := s.clock.start
  let s := { s with clock }
  if started then s.emit .clockStart else s

/-- Stops the clock's source, if it runs. -/
def stopClock (s : Station) : Station :=
  let (stopped, clock) := s.clock.stop
  let s := { s with clock }
  if stopped then s.emit .clockStop else s

/-- Checks the settings and sets the clock up, which reads its source
    twice. -/
def prepare (s : Station) (first second : UInt32) : Except EndpointRefusal Station :=
  match s.settings.check with
  | .error r => .error (.settings r)
  | .ok () =>
    match s.clock.setup first second with
    | .error r => .error (.source r)
    | .ok clock => .ok (startClock { s with clock })

/-- Takes a timing under which every packet fits into half a period. -/
def applyTiming (s : Station) (timing : Timing) : Except EndpointRefusal Station :=
  let needed := timing.micros maxPacketSize + s.radio.timeToAir maxPacketSize
    + s.radio.timeInAir maxPacketSize
  let half := s.settings.duplexMicros / 2
  if half < needed then .error (.budget needed half)
  else .ok { s with timing := some timing }

/-- Goes on with what was prepared, which stays prepared if it is refused. -/
def conclude (e : Endpoint) (prepared : Except EndpointRefusal Station)
    (timing : Station → Except EndpointRefusal Timing) : Except EndpointRefusal Unit × Endpoint :=
  match prepared with
  | .error r => (.error r, e)
  | .ok s =>
    match timing s >>= applyTiming s with
    | .error r => (.error r, { e with station := s })
    | .ok s => (.ok (), { e with station := s })

/-- Sets the endpoint up and measures the time to encode a packet. -/
def setup (e : Endpoint) (first second : UInt32) (readings : Timing.Readings) :
    Except EndpointRefusal Unit × Endpoint :=
  e.conclude (prepare e.station first second) fun s =>
    (Timing.calibrate s.clock s.settings.calibrationRounds.toNat readings).mapError .timing

/-- Sets the endpoint up with a time to encode a packet that is known. -/
def setupWithTiming (e : Endpoint) (raw : UInt32) (timing : Timing) :
    Except EndpointRefusal Unit × Endpoint :=
  e.conclude (prepare e.station raw raw) fun _ => .ok timing

/-! ## On and off -/

/-- Starts an endpoint that is set up and off. -/
def start (e : Endpoint) (raw : UInt32) : Except EndpointRefusal Unit × Endpoint :=
  if e.station.timing.isNone then (.error .notSetUp, e)
  else if e.stage ≠ .disabled then (.ok (), e)
  else
    let s := (startClock e.station).emit .radioStart
    if s.radio.starts then
      (.ok (), { e with station := s.setStage .booting (s.clock.monotonic raw) })
    else (.error .radio, { e with station := s })

/-- Stops an endpoint that is on. -/
def stop (e : Endpoint) (raw : UInt32) : Endpoint :=
  if e.stage = .disabled then e
  else
    let s := e.station.emit .radioStop
    let s := { s with transmitting := false, listening := none, session := s.session.reset }
    { e with station := (stopClock s).setStage .disabled (s.clock.monotonic raw) }

/-! ## Ticks -/

/-- The tick of the role; the first one begins the search for a partner. -/
def roleTick (role : RoleState) (s : Station) (m : Moment) (now : Nat) : Turn RoleState :=
  match role with
  | .server v =>
    let (v, s) := if s.stage = .booting then v.restart s now else (v, s)
    let turn := v.tick s m now
    ⟨.server turn.role, turn.station, turn.delay⟩
  | .client v =>
    let (v, s) := if s.stage = .booting then v.restart s now else (v, s)
    let turn := v.tick s m now
    ⟨.client turn.role, turn.station, turn.delay⟩

/-- Does what is due.  Yields the delay after which there is something to do
    again; an earlier tick does no harm. -/
def tick (e : Endpoint) (m : Moment) : Except Fault (Nat × Endpoint) := do
  let (check, clock) ← e.station.clock.runCheck m.raw
  let s := { e.station with clock }
  if s.stage = .disabled then return (max check 1, { e with station := s })
  else
    let turn := roleTick e.role s m (clock.monotonic m.raw)
    return (max (min turn.delay check) 1, ⟨turn.station, turn.role⟩)

/-! ## Reports of the radio -/

/-- Takes note of a packet that is accepted; `lost` packets are missing before
    it. -/
def accepted (s : Station) (a : Arrival) (rssi : Int8) (lost : Nat) : Station :=
  let linked := s.stage = .linked
  { s with
    tally := { s.tally with
      received := s.tally.received + 1
      lost := s.tally.lost + lost
      lastRssi := some rssi }
    lastHeard := max s.lastHeard a.micros
    reporting := s.reporting.onHeard a.micros
    linkedReceived := if linked then s.linkedReceived + 1 else s.linkedReceived
    linkedLost := if linked then s.linkedLost + lost else s.linkedLost }

/-- Whether a message may come under the keys it came under. -/
def keysMatch : Sealing → Message → Bool
  | .unlinked, .pairing _ => true
  | .session, .handshake _ | .session, .upkeep _ => true
  | _, _ => false

/-- Takes the partner's report. -/
def onReport (s : Station) (report : Report) : Station :=
  if s.stage = .linked then
    { s with
      reporting := s.reporting.onReceived report
      nextCounter := (Reporting.catchUp? report.receiveCounter s.nextCounter).getD s.nextCounter }
  else s

/-- Passes a message on to the role. -/
def roleMessage (role : RoleState) (s : Station) (message : Message) (a : Arrival) (now : Nat) :
    Except Fault (RoleState × Station) :=
  match role with
  | .server v => (v.onMessage s message a now).map fun (v, s) => (.server v, s)
  | .client v => (v.onMessage s message a now).map fun (v, s) => (.client v, s)

/-- Takes the contents of the link port. -/
def onLinkPort (e : Endpoint) (kind : Sealing) (payload : Bytes) (a : Arrival) (now : Nat) :
    Except Fault Endpoint :=
  match Message.read payload with
  | .error _ => .ok { e with station := e.station.reject }
  | .ok message =>
    if keysMatch kind message then
      match message with
      | .upkeep (.report report) => .ok { e with station := onReport e.station report }
      | _ => (roleMessage e.role e.station message a now).map fun (role, s) => ⟨s, role⟩
    else .ok { e with station := e.station.reject }

/-- Takes a packet that is accepted. -/
def onPacket (e : Endpoint) (kind : Sealing) (p : Packet) (a : Arrival) (now : Nat) :
    Except Fault Endpoint :=
  if p.port = linkPort then e.onLinkPort kind p.payload a now
  else if e.stage = .linked then
    .ok { e with station := e.station.emit (.deliver p.port p.payload a.time) }
  else .ok e

/-- Checks the number of a packet.  Only packets under the session keys are
    numbered. -/
def checkCounter (s : Station) (kind : Sealing) (p : Packet) : Option (Nat × Station) :=
  match kind with
  | .unlinked => some (0, s)
  | .session =>
    match s.replay.accept p.counter with
    | .ok (lost, replay) => some (lost, { s with replay })
    | .error _ => none

/-- Takes received bytes, whose first bit arrived when the clock's source read
    `captured`, which is therefore at most its overflow value
    (`Source.Reads`). -/
def onReceive (e : Endpoint) (m : Moment) (data : Bytes) (captured : UInt32) (rssi : Int8) :
    Except Fault Endpoint :=
  if e.stage.isOff then .ok e
  else
    let s := e.station
    let arrival := s.clock.monotonicAt m.raw captured
    let a : Arrival := ⟨arrival, s.clock.linkTimeAt arrival, data.length⟩
    match s.decode data a.time with
    | none => .ok { e with station := s.reject }
    | some (kind, p) =>
      match checkCounter s kind p with
      | none => .ok { e with station := s.reject }
      | some (lost, s) =>
        onPacket { e with station := accepted s a rssi lost } kind p a (s.clock.monotonic m.raw)

/-- The radio began to receive a packet in vain. -/
def onBroken (e : Endpoint) : Endpoint :=
  { e with station := e.station.count fun t => { t with broken := t.broken + 1 } }

/-- The radio has finished a transmission. -/
def onSent (e : Endpoint) (m : Moment) : Endpoint :=
  let s := { e.station with transmitting := false, listening := none }
  { e with station := if s.stage.isOff then s else s.listen (s.clock.monotonic m.raw) }

/-! ## Requests of the application -/

/-- Queues a packet, which is possible on a link while no other is
    waiting. -/
def request (e : Endpoint) (raw : UInt32) (port : UInt8) (payload : Bytes) (priority : UInt8) :
    Bool × Endpoint :=
  if e.stage = .linked then
    let (ok, queue) :=
      e.station.queue.request port payload priority (e.station.clock.monotonic raw)
    (ok, { e with station := { e.station with queue } })
  else (false, e)

/-- Takes back the packet that waits. -/
def cancel (e : Endpoint) : Endpoint :=
  { e with station := { e.station with queue := e.station.queue.cancel } }

def isPending (e : Endpoint) : Bool := e.station.queue.isPending

end Endpoint
end AirLink
