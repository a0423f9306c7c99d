/-
  Two endpoints on one medium.  Virtual time jumps from one tick or packet to
  the next (`Simulation.step`), so a run of any length takes as many steps as
  something happens.
-/
import AirLink.Air.Medium
import AirLink.Link.Endpoint

namespace AirLink

/-- A user packet that arrived. -/
structure Delivery where
  port : UInt8
  payload : Bytes
  time : LinkTime
deriving DecidableEq

/-- An endpoint of the simulation and what its application was told. -/
structure Peer where
  endpoint : Endpoint
  /-- when its next tick is due -/
  nextTick : Nat
  stages : List Stage
  deliveries : List Delivery

/-- Two endpoints, the time, and the air between them. -/
structure Simulation where
  now : Nat
  medium : Medium
  server : Peer
  client : Peer

namespace Simulation

/-- Virtual time at the start. -/
def startMicros : Nat := 10000000

/-- The signal strength of every packet. -/
def rssi : Int8 := -40

/-- The radio of a peer. -/
def radioOf : Role → Nat
  | .server => 0
  | .client => 1

/-- The peer with a radio. -/
def roleOf (radio : Nat) : Role := if radio = 0 then .server else .client

def peer (s : Simulation) : Role → Peer
  | .server => s.server
  | .client => s.client

def setPeer (s : Simulation) (r : Role) (p : Peer) : Simulation :=
  match r with
  | .server => { s with server := p }
  | .client => { s with client := p }

/-- The reading of a clock's source at a time. -/
def rawAt (now : Nat) : UInt32 := UInt32.ofNat now

def raw (s : Simulation) : UInt32 := rawAt s.now

/-- What a peer sees of its surroundings. -/
def moment (s : Simulation) (r : Role) : Moment :=
  ⟨s.raw, s.medium.isFree (radioOf r), s.medium.isFree (radioOf r)⟩

/-- The virtual radios, as the endpoints know them. -/
def radio : Radio := ⟨fun _ => virtualTimeToAir, fun n => virtualTimeInAir (UInt8.ofNat n), true⟩

/-- Carries out what a peer did to its surroundings. -/
def apply (s : Simulation) (r : Role) : Effect → Simulation
  | .send channel packet => { s with medium := (s.medium.send (radioOf r) s.now channel packet).2 }
  | .listen channel => { s with medium := s.medium.listen (radioOf r) s.now channel }
  | .radioStop => { s with medium := s.medium.stop (radioOf r) }
  | .stage stage => s.setPeer r { s.peer r with stages := (s.peer r).stages ++ [stage] }
  | .deliver port payload time =>
    s.setPeer r { s.peer r with deliveries := (s.peer r).deliveries ++ [⟨port, payload, time⟩] }
  | .clockStart | .clockStop | .radioStart | .refused .. => s

/-- Replaces an endpoint by one that an operation left, and carries out what
    it did. -/
def update (s : Simulation) (r : Role) (e : Endpoint) : Simulation :=
  let (effects, endpoint) := e.flush
  effects.foldl (fun s effect => s.apply r effect)
    (s.setPeer r { s.peer r with endpoint })

/-- Two endpoints that are set up and off. -/
def create (settings : Settings) (server client : Session) :
    Except EndpointRefusal Simulation := do
  let peer (session : Session) (seed : UInt64) : Except EndpointRefusal Peer := do
    let e := Endpoint.create settings radio session Rate.standard.toSource (.ofSeed seed)
    let (result, e) := e.setupWithTiming (rawAt startMicros) .instant
    result
    return ⟨e.flush.2, startMicros, [], []⟩
  return ⟨startMicros, .ofRadios 2, ← peer server 1, ← peer client 2⟩

/-- Starts an endpoint. -/
def startOne (s : Simulation) (r : Role) : Except EndpointRefusal Unit × Simulation :=
  let (result, e) := (s.peer r).endpoint.start s.raw
  (result, s.update r e)

/-- Has a tick of a peer due at once. -/
def wake (s : Simulation) (r : Role) : Simulation :=
  s.setPeer r { s.peer r with nextTick := s.now }

/-- Starts both endpoints. -/
def start (s : Simulation) : Except EndpointRefusal Unit × Simulation :=
  match s.startOne .server with
  | (.error r, s) => (.error r, s)
  | (.ok (), s) =>
    match s.startOne .client with
    | (.error r, s) => (.error r, s)
    | (.ok (), s) => (.ok (), (s.wake .server).wake .client)

/-- Stops an endpoint. -/
def stopOne (s : Simulation) (r : Role) : Simulation :=
  s.update r ((s.peer r).endpoint.stop s.raw)

/-! ## Steps -/

/-- A tick of a peer.  Yields its delay. -/
def tick (s : Simulation) (r : Role) : Except Fault (Nat × Simulation) := do
  let (delay, e) ← (s.peer r).endpoint.tick (s.moment r)
  return (delay, s.update r e)

/-- A tick of a peer, if it is due. -/
def tickIfDue (s : Simulation) (r : Role) : Except Fault Simulation := do
  if (s.peer r).nextTick ≤ s.now then
    let (delay, s) ← s.tick r
    return s.setPeer r { s.peer r with nextTick := s.now + delay }
  else return s

/-- A packet reaches a peer. -/
def receive (s : Simulation) (r : Role) (data : Bytes) (captured : UInt32) (rssi : Int8) :
    Except Fault Simulation := do
  return s.update r (← (s.peer r).endpoint.onReceive (s.moment r) data captured rssi)

/-- Passes on what the medium has for a peer, whose tick is due then. -/
def handle (s : Simulation) : MediumEvent → Except Fault Simulation
  | .sent radio =>
    let r := roleOf radio
    .ok ((s.update r ((s.peer r).endpoint.onSent (s.moment r))).wake r)
  | .delivered radio data arrival => do
    let r := roleOf radio
    return (← s.receive r data (rawAt arrival) rssi).wake r

/-- When something happens next. -/
def nextDue (s : Simulation) : Nat :=
  let ticks := min s.server.nextTick s.client.nextTick
  match s.medium.nextEvent with
  | some t => min ticks t
  | none => ticks

/-- Lets time pass; it does not go back. -/
def advance (s : Simulation) (now : Nat) : Simulation := { s with now := max s.now now }

/-- What happens next, if it does so by `deadline`; else time passes until
    then.  Yields whether something happened. -/
def step (s : Simulation) (deadline : Nat) : Except Fault (Bool × Simulation) :=
  if deadline < s.nextDue then .ok (false, s.advance deadline)
  else do
    let s := s.advance s.nextDue
    let (events, medium) := s.medium.takeDue s.now
    let s ← events.foldlM handle { s with medium }
    let s ← s.tickIfDue .server
    let s ← s.tickIfDue .client
    return (true, s)

/-- Steps until the deadline or until a condition holds, at most `fuel` of
    them.  Yields whether the condition held at the end. -/
def runSteps (deadline : Nat) (done : Simulation → Bool) :
    (fuel : Nat) → Simulation → Except Fault (Bool × Simulation)
  | 0, s => .ok (done s, s)
  | fuel + 1, s =>
    if done s then .ok (true, s)
    else do
      let (more, s) ← s.step deadline
      if more then runSteps deadline done fuel s else return (done s, s)

/-- Runs until a condition holds, for a time at most.  Each step but the first
    takes at least a microsecond. -/
def runUntil (s : Simulation) (micros : Nat) (done : Simulation → Bool) :
    Except Fault (Bool × Simulation) :=
  runSteps (s.now + micros) done (micros + 2) s

/-- Runs for a time. -/
def runFor (s : Simulation) (micros : Nat) : Except Fault Simulation := do
  return (← s.runUntil micros fun _ => false).2

def bothLinked (s : Simulation) : Bool :=
  s.server.endpoint.stage = .linked && s.client.endpoint.stage = .linked

end Simulation
end AirLink
